import Mathlib.Data.List.Basic
import Mathlib.Data.Nat.Digits.Defs
import ContentRules.Json.Reader
import ContentRules.Json.Writer

/-!
# A document is read back from its text

`Json.parse?_compact`: the compact text of a document is read as that very document, provided that
its numerals are written as JSON wants them.

**Strategy.**  Each reader is run on the characters of what it reads followed by a rest, and it must
stop exactly where those characters end.  A string ends at its quote and an array at its bracket, so
any rest will do; a numeral has no end of its own, and the rest must not go on with it.  In a
document such a rest begins with a comma or a closing mark, or is empty (`Ends`).  Numerals and
strings come first, then arrays and objects from what is known of their items (`Reads`), and the
documents by induction on why they are well formed.
-/

namespace ContentRules

namespace Json

/-! ## Where a value ends -/

/-- What may stand behind a value. -/
def Ends (rest : List Char) : Prop :=
  ∀ c ∈ rest.head?, c = ',' ∨ c = ']' ∨ c = '}'

@[simp] theorem ends_nil : Ends [] := by
  simp [Ends]

@[simp] theorem ends_itemChars (items : List Json) (rest : List Char) :
    Ends (itemChars items ++ rest) := by
  cases items <;> simp [Ends, itemChars]

@[simp] theorem ends_memberChars (members : List (Option String × Json)) (rest : List Char) :
    Ends (memberChars members ++ rest) := by
  cases members <;> simp [Ends, memberChars]

/-! ## Digits -/

/-- The text does not begin with a digit. -/
def NoDigit (rest : List Char) : Prop :=
  ∀ c ∈ rest.head?, isDigit c = false

theorem Ends.noDigit {rest : List Char} (hrest : Ends rest) : NoDigit rest := by
  intro c hc
  rcases hrest c hc with rfl | rfl | rfl <;> rfl

theorem readDigits_append {digits rest : List Char} (hne : digits ≠ [])
    (hdigits : ∀ c ∈ digits, isDigit c = true) (hrest : NoDigit rest) :
    readDigits (digits ++ rest) = some (digits, rest) := by
  have htake : rest.takeWhile isDigit = [] := by
    cases rest with
    | nil => rfl
    | cons c rest => simp [hrest c (by simp)]
  have hdrop : rest.dropWhile isDigit = rest := by
    cases rest with
    | nil => rfl
    | cons c rest => simp [hrest c (by simp)]
  unfold readDigits
  rw [List.takeWhile_append_of_pos hdigits, List.dropWhile_append_of_pos hdigits, htake, hdrop]
  cases digits with
  | nil => exact absurd rfl hne
  | cons c digits => simp

end Json

/-! ## Numerals -/

/-- The numerals that JSON allows: digits in each part that is there, and no leading zero. -/
structure Numeral.WellFormed (numeral : Numeral) : Prop where
  whole_ne : numeral.whole ≠ []
  whole : ∀ c ∈ numeral.whole, Json.isDigit c = true
  whole_zero : ∀ digits, numeral.whole = '0' :: digits → digits = []
  fraction : ∀ c ∈ numeral.fraction, Json.isDigit c = true
  power : ∀ power ∈ numeral.power, power.digits ≠ [] ∧ ∀ c ∈ power.digits, Json.isDigit c = true

namespace Numeral

theorem isDigit_eq (c : Char) : Json.isDigit c = c.isDigit := by
  rfl

theorem head_toDigits {n : Nat} (hn : 0 < n) : (Nat.toDigits 10 n).head? ≠ some '0' := by
  induction n using Nat.strongRecOn with
  | _ n ih =>
    by_cases hsmall : n < 10
    · have hdigit : ∀ digit < 10, 0 < digit → [Nat.digitChar digit].head? ≠ some '0' := by decide
      rw [Nat.toDigits_of_lt_base hsmall]
      exact hdigit n hsmall hn
    · rw [Nat.toDigits_of_base_le (by decide) (by omega),
        List.head?_append_of_ne_nil _ Nat.toDigits_ne_nil]
      exact ih (n / 10) (by omega) (by omega)

/-- The numeral of an integer is one that JSON allows. -/
theorem wellFormed_ofInt (n : Int) : (ofInt n).WellFormed where
  whole_ne := Nat.toDigits_ne_nil
  whole c hc := by
    rw [isDigit_eq]
    exact Nat.isDigit_of_mem_toDigits (by decide) (by decide) hc
  whole_zero digits hwhole := by
    have hhead : (Nat.toDigits 10 n.natAbs).head? = some '0' := by
      rw [show Nat.toDigits 10 n.natAbs = '0' :: digits from hwhole]
      rfl
    rcases Nat.eq_zero_or_pos n.natAbs with hzero | hpos
    · rw [show (ofInt n).whole = Nat.toDigits 10 n.natAbs from rfl, hzero] at hwhole
      exact (List.cons.inj hwhole).2.symm
    · exact absurd hhead (head_toDigits hpos)
  fraction := by simp [ofInt]
  power := by simp [ofInt]

theorem toInt?_ofInt (n : Int) : (ofInt n).toInt? = some n := by
  have hvalue : value (ofInt n).whole = n.natAbs := Nat.ofDigitChars_toDigits (by decide) (by decide)
  unfold toInt?
  rw [if_neg (by simp [ofInt]), hvalue]
  by_cases hn : n < 0
  · rw [if_pos (by simpa [ofInt] using hn), if_neg (by omega)]
    congr 1
    omega
  · rw [if_neg (by simpa [ofInt] using hn)]
    congr 1
    omega

end Numeral

namespace Json

theorem readWhole_append {numeral : Numeral} (hnumeral : numeral.WellFormed) {rest : List Char}
    (hrest : NoDigit rest) : readWhole (numeral.whole ++ rest) = some (numeral.whole, rest) := by
  unfold readWhole
  rw [readDigits_append hnumeral.whole_ne hnumeral.whole hrest]
  split
  · next c digits _ heq =>
    obtain ⟨hwhole, -⟩ := Prod.mk.inj (Option.some.inj heq)
    cases hnumeral.whole_zero _ hwhole
  · rfl

/-- The characters of a power of ten. -/
def powerChars : Option Power → List Char
  | none => []
  | some power => 'e' :: (if power.negative then '-' else '+') :: power.digits

theorem readPower_append {numeral : Numeral} (hnumeral : numeral.WellFormed) {rest : List Char}
    (hrest : Ends rest) :
    readPower (powerChars numeral.power ++ rest) = some (numeral.power, rest) := by
  cases hpower : numeral.power with
  | none =>
    cases rest with
    | nil => rfl
    | cons c rest => rcases hrest c (by simp) with rfl | rfl | rfl <;> rfl
  | some power =>
    obtain ⟨hne, hdigits⟩ := hnumeral.power power hpower
    obtain ⟨negative, digits⟩ := power
    have hread := readDigits_append hne hdigits hrest.noDigit
    cases negative <;> simp [powerChars, readPower, readSign, hread]

/-- The characters of what stands behind a point. -/
def fractionChars (fraction : List Char) : List Char :=
  if fraction = [] then [] else '.' :: fraction

theorem chars_numeral (numeral : Numeral) :
    numeral.chars = (if numeral.negative then ['-'] else []) ++
      (numeral.whole ++ (fractionChars numeral.fraction ++ powerChars numeral.power)) := by
  obtain ⟨negative, whole, fraction, power⟩ := numeral
  cases power <;> simp [Numeral.chars, powerChars, fractionChars]

theorem head_powerChars (power : Option Power) {rest : List Char} (hrest : Ends rest) :
    ∀ c ∈ (powerChars power ++ rest).head?, isDigit c = false ∧ c ≠ '.' := by
  intro c hc
  cases power with
  | none => rcases hrest c hc with rfl | rfl | rfl <;> decide
  | some power =>
    obtain rfl : 'e' = c := by simpa [powerChars] using hc
    decide

theorem readFraction_append {numeral : Numeral} (hnumeral : numeral.WellFormed) {rest : List Char}
    (hrest : ∀ c ∈ rest.head?, isDigit c = false ∧ c ≠ '.') :
    readFraction (fractionChars numeral.fraction ++ rest) = some (numeral.fraction, rest) := by
  by_cases hfraction : numeral.fraction = []
  · simp only [fractionChars, hfraction, if_true, List.nil_append]
    cases rest with
    | nil => rfl
    | cons c rest =>
      have hpoint := (hrest c (by simp)).2
      unfold readFraction
      split
      · next heq => exact absurd (List.cons.inj heq).1 hpoint
      · rfl
  · simp only [fractionChars, hfraction, if_false, List.cons_append, readFraction]
    exact readDigits_append hfraction hnumeral.fraction fun c hc => (hrest c hc).1

theorem noDigit_fractionChars {fraction rest : List Char} (hrest : NoDigit rest) :
    NoDigit (fractionChars fraction ++ rest) := by
  intro c hc
  by_cases hfraction : fraction = []
  · exact hrest c (by simpa [fractionChars, hfraction] using hc)
  · obtain rfl : '.' = c := by simpa [fractionChars, hfraction] using hc
    rfl

theorem readUnsigned_append {numeral : Numeral} (hnumeral : numeral.WellFormed) {rest : List Char}
    (hrest : Ends rest) :
    readUnsigned numeral.negative
      (numeral.whole ++ (fractionChars numeral.fraction ++ (powerChars numeral.power ++ rest))) =
        some (numeral, rest) := by
  have hbehind := head_powerChars numeral.power hrest
  simp [readUnsigned,
    readWhole_append hnumeral (noDigit_fractionChars fun c hc => (hbehind c hc).1),
    readFraction_append hnumeral hbehind, readPower_append hnumeral hrest]

theorem exists_whole_eq_cons {numeral : Numeral} (hnumeral : numeral.WellFormed) :
    ∃ c digits, numeral.whole = c :: digits ∧ isDigit c = true := by
  obtain ⟨c, digits, hwhole⟩ := List.exists_cons_of_ne_nil hnumeral.whole_ne
  exact ⟨c, digits, hwhole, hnumeral.whole c (by simp [hwhole])⟩

/-- A numeral begins with its sign or with a digit. -/
theorem exists_numeralChars_eq_cons {numeral : Numeral} (hnumeral : numeral.WellFormed) :
    ∃ c rest, numeral.chars = c :: rest ∧ (c = '-' ∨ isDigit c = true) := by
  obtain ⟨c, digits, hwhole, hdigit⟩ := exists_whole_eq_cons hnumeral
  cases hsign : numeral.negative with
  | true => exact ⟨'-', _, by simp only [chars_numeral, hsign, if_true]; rfl, Or.inl rfl⟩
  | false => exact ⟨c, _, by simp only [chars_numeral, hsign, hwhole]; rfl, Or.inr hdigit⟩

/-- The blanks, the closing marks and what values other than numbers begin with. -/
def otherMarks : List Char :=
  [' ', '\n', '\t', '\r', ']', '}', 'n', 't', 'f', '"', '[', '{']

theorem not_mem_otherMarks {c : Char} (hc : c = '-' ∨ isDigit c = true) : c ∉ otherMarks := by
  have hmarks : ∀ mark ∈ otherMarks, ¬ (mark = '-' ∨ isDigit mark = true) := by
    simp [otherMarks, isDigit]
  exact fun hmem => hmarks c hmem hc

theorem readNumber_chars {numeral : Numeral} (hnumeral : numeral.WellFormed) {rest : List Char}
    (hrest : Ends rest) : readNumber (numeral.chars ++ rest) = some (numeral, rest) := by
  have hread := readUnsigned_append hnumeral hrest
  obtain ⟨c, digits, hwhole, hdigit⟩ := exists_whole_eq_cons hnumeral
  cases hsign : numeral.negative with
  | true =>
    rw [hsign] at hread
    simpa [chars_numeral, hsign, readNumber] using hread
  | false =>
    rw [hsign, hwhole] at hread
    simp only [chars_numeral, hsign, hwhole, Bool.false_eq_true, if_false, List.nil_append,
      List.cons_append, List.append_assoc] at hread ⊢
    unfold readNumber
    split
    · next heq =>
      obtain rfl : c = '-' := (List.cons.inj heq).1
      cases hdigit
    · exact hread

/-! ## Strings -/

theorem hexValue?_hexDigit : ∀ n < 16, hexValue? (hexDigit n) = some n := by
  decide

/-- The unit that was read first, with those of the rest. -/
def consUnit (unit : Unit16) (read : Option (List Unit16 × List Char)) :
    Option (List Unit16 × List Char) :=
  read.map fun (units, rest) => (unit :: units, rest)

theorem readUnits_control {c : Char} (hc : c.toNat < 0x20) (rest : List Char) :
    readUnits ('\\' :: 'u' :: '0' :: '0' :: hexDigit (c.toNat / 16) :: hexDigit (c.toNat % 16) :: rest)
      = consUnit (.char c) (readUnits rest) := by
  have hhex : hexValue4? '0' '0' (hexDigit (c.toNat / 16)) (hexDigit (c.toNat % 16)) =
      some c.toNat := by
    have hzero : hexValue? '0' = some 0 := rfl
    simp only [hexValue4?, hzero, hexValue?_hexDigit (c.toNat / 16) (by omega),
      hexValue?_hexDigit (c.toNat % 16) (by omega), Option.bind_eq_bind, Option.bind_some,
      Option.pure_def, Option.some.injEq]
    omega
  have hunit : Unit16.ofNat c.toNat = .char c := by
    unfold Unit16.ofNat
    rw [if_neg (by omega), if_neg (by omega), Char.ofNat_toNat]
  cases hrest : readUnits rest <;> simp [readUnits, consUnit, hhex, hunit, hrest]

theorem readUnits_plain {c : Char} (hquote : c ≠ '"') (hbackslash : c ≠ '\\')
    (hc : ¬ c.toNat < 0x20) (rest : List Char) :
    readUnits (c :: rest) = consUnit (.char c) (readUnits rest) := by
  rw [readUnits.eq_def]
  split
  · next heq => cases heq
  · next heq => exact absurd (List.cons.inj heq).1 hquote
  · next heq => exact absurd (List.cons.inj heq).1 hbackslash
  · next heq => exact absurd (List.cons.inj heq).1 hbackslash
  · next heq =>
    obtain ⟨rfl, rfl⟩ := List.cons.inj heq
    rw [if_neg (by simp [hbackslash, hc])]
    rfl

/-- An escaped character is read back as one unit. -/
theorem readUnits_escapedChar (c : Char) (rest : List Char) :
    readUnits (escapedChar c ++ rest) = consUnit (.char c) (readUnits rest) := by
  unfold escapedChar
  split
  case h_8 _ hquote hbackslash _ _ _ _ _ =>
    split_ifs with hcontrol
    · exact readUnits_control hcontrol rest
    · exact readUnits_plain hquote hbackslash hcontrol rest
  all_goals cases hrest : readUnits rest <;> simp [readUnits, shortEscape?, consUnit, hrest]

theorem readUnits_flatMap (content rest : List Char) :
    readUnits (content.flatMap escapedChar ++ '"' :: rest) = some (content.map .char, rest) := by
  induction content with
  | nil => simp [readUnits]
  | cons c content ih =>
    rw [List.flatMap_cons, List.append_assoc, readUnits_escapedChar, ih]
    rfl

theorem textOfUnits_map_char (content : List Char) :
    textOfUnits (content.map .char) = some content := by
  induction content with
  | nil => rfl
  | cons c content ih => simp [textOfUnits, ih]

/-- The characters of a string behind its opening quote. -/
theorem readString_quotedChars (content : Option String) (rest : List Char) :
    ∃ inner, quotedChars content = '"' :: inner ∧ readString (inner ++ rest) = some (content, rest) := by
  cases content with
  | some content =>
    refine ⟨_, rfl, ?_⟩
    simp [readString, readUnits_flatMap, textOfUnits_map_char]
  | none => exact ⟨_, rfl, rfl⟩

/-! ## Documents -/

/-- The documents whose numerals are written as JSON wants them. -/
inductive WellFormed : Json → Prop
  | null : WellFormed .null
  | bool (value : Bool) : WellFormed (.bool value)
  | num {numeral : Numeral} (hnumeral : numeral.WellFormed) : WellFormed (.num numeral)
  | str (content : Option String) : WellFormed (.str content)
  | arr {items : List Json} (hitems : ∀ item ∈ items, WellFormed item) : WellFormed (.arr items)
  | obj {members : List (Option String × Json)}
      (hmembers : ∀ member ∈ members, WellFormed member.2) : WellFormed (.obj members)

theorem WellFormed.ofMembers {members : List (String × Json)}
    (hmembers : ∀ member ∈ members, WellFormed member.2) : WellFormed (.ofMembers members) := by
  refine .obj fun member hmember => ?_
  obtain ⟨⟨key, value⟩, hmem, rfl⟩ := List.mem_map.mp hmember
  exact hmembers _ hmem

theorem WellFormed.tagged {content : Json} (hcontent : WellFormed content) (tag : String) :
    WellFormed (.tagged tag content) :=
  .ofMembers (by simpa using hcontent)

/-- The text begins with a character that opens a value: neither a blank nor a closing mark. -/
def Opens (text : List Char) : Prop :=
  ∃ c rest, text = c :: rest ∧ isBlank c = false ∧ c ≠ ']' ∧ c ≠ '}'

theorem Opens.append {text : List Char} (htext : Opens text) (rest : List Char) :
    Opens (text ++ rest) := by
  obtain ⟨c, tail, rfl, hc⟩ := htext
  exact ⟨c, tail ++ rest, rfl, hc⟩

theorem Opens.skipBlanks_eq {text : List Char} (htext : Opens text) : skipBlanks text = text := by
  obtain ⟨c, rest, rfl, hblank, -⟩ := htext
  simp [skipBlanks, hblank]

theorem opens_quotedChars (content : Option String) : Opens (quotedChars content) := by
  obtain ⟨inner, hinner, -⟩ := readString_quotedChars content []
  exact ⟨'"', inner, hinner, rfl, by decide, by decide⟩

theorem WellFormed.opens {json : Json} (hjson : json.WellFormed) : Opens json.chars := by
  cases hjson with
  | null => exact ⟨'n', _, rfl, rfl, by decide, by decide⟩
  | bool value =>
    cases value with
    | true => exact ⟨'t', _, rfl, rfl, by decide, by decide⟩
    | false => exact ⟨'f', _, rfl, rfl, by decide, by decide⟩
  | num hnumeral =>
    obtain ⟨c, rest, hchars, hc⟩ := exists_numeralChars_eq_cons hnumeral
    refine ⟨c, rest, hchars, ?_⟩
    have hmarks := not_mem_otherMarks hc
    simp only [otherMarks, List.mem_cons, not_or] at hmarks
    obtain ⟨hspace, hnewline, htab, hreturn, hbracket, hbrace, -⟩ := hmarks
    exact ⟨by simp [isBlank, hspace, hnewline, htab, hreturn], hbracket, hbrace⟩
  | str content => exact opens_quotedChars content
  | @arr items _ => cases items <;> exact ⟨'[', _, rfl, rfl, by decide, by decide⟩
  | @obj members _ => cases members <;> exact ⟨'{', _, rfl, rfl, by decide, by decide⟩

theorem skipBlanks_itemChars (items : List Json) (rest : List Char) :
    skipBlanks (itemChars items ++ rest) = itemChars items ++ rest := by
  cases items <;> rfl

theorem skipBlanks_memberChars (members : List (Option String × Json)) (rest : List Char) :
    skipBlanks (memberChars members ++ rest) = memberChars members ++ rest := by
  cases members <;> rfl

/-- The document is read from its characters, whatever may stand behind a value. -/
structure Reads (json : Json) : Prop where
  opens : Opens json.chars
  readValue_eq : ∀ bound rest, json.chars.length ≤ bound → Ends rest →
    readValue (bound + 1) (json.chars ++ rest) = some (json, rest)

theorem readItems_itemChars {items : List Json} (hitems : ∀ item ∈ items, item.Reads)
    (bound : Nat) (rest : List Char) (hbound : (itemChars items).length ≤ bound) :
    readItems (bound + 1) (itemChars items ++ rest) = some (items, rest) := by
  induction items generalizing bound with
  | nil => rfl
  | cons item items ih =>
    obtain ⟨hitem, hitems⟩ := List.forall_mem_cons.mp hitems
    simp only [itemChars, List.length_cons, List.length_append] at hbound
    obtain ⟨bound, rfl⟩ : ∃ fewer, bound = fewer + 1 := ⟨bound - 1, by omega⟩
    have hread := hitem.readValue_eq bound (itemChars items ++ rest) (by omega) (by simp)
    simp only [itemChars, List.cons_append, List.append_assoc, readItems,
      (hitem.opens.append _).skipBlanks_eq, hread, Option.bind_eq_bind, Option.bind_some,
      skipBlanks_itemChars, ih hitems bound (by omega), Option.pure_def]

theorem readMember_append (key : Option String) {value : Json} (hvalue : value.Reads)
    {bound : Nat} {rest : List Char} (hrest : Ends rest) (hbound : value.chars.length ≤ bound) :
    readMember (bound + 2) (quotedChars key ++ ':' :: (value.chars ++ rest)) =
      some ((key, value), rest) := by
  obtain ⟨inner, hinner, hstring⟩ := readString_quotedChars key (':' :: (value.chars ++ rest))
  have hcolon : skipBlanks (':' :: (value.chars ++ rest)) = ':' :: (value.chars ++ rest) := rfl
  rw [hinner, List.cons_append, readMember, hstring]
  simp only [Option.bind_eq_bind, Option.bind_some, hcolon,
    (hvalue.opens.append rest).skipBlanks_eq, hvalue.readValue_eq bound rest hbound hrest,
    Option.pure_def]

theorem readMembers_memberChars {members : List (Option String × Json)}
    (hmembers : ∀ member ∈ members, member.2.Reads) (bound : Nat) (rest : List Char)
    (hbound : (memberChars members).length ≤ bound) :
    readMembers (bound + 1) (memberChars members ++ rest) = some (members, rest) := by
  induction members generalizing bound with
  | nil => rfl
  | cons member members ih =>
    obtain ⟨key, value⟩ := member
    obtain ⟨hvalue, hmembers⟩ := List.forall_mem_cons.mp hmembers
    simp only [memberChars, List.length_cons, List.length_append] at hbound
    obtain ⟨bound, rfl⟩ : ∃ fewer, bound = fewer + 2 := ⟨bound - 2, by omega⟩
    have hread := readMember_append key hvalue (ends_memberChars members rest)
      (show value.chars.length ≤ bound by omega)
    simp only [memberChars, List.cons_append, List.append_assoc, readMembers,
      ((opens_quotedChars key).append _).skipBlanks_eq, hread, Option.bind_eq_bind,
      Option.bind_some, skipBlanks_memberChars, ih hmembers (bound + 1) (by omega),
      Option.pure_def]

theorem readValue_numeralChars {numeral : Numeral} (hnumeral : numeral.WellFormed) (bound : Nat)
    {rest : List Char} (hrest : Ends rest) :
    readValue (bound + 1) (numeral.chars ++ rest) = some (.num numeral, rest) := by
  have hread := readNumber_chars hnumeral hrest
  obtain ⟨c, tail, hchars, hc⟩ := exists_numeralChars_eq_cons hnumeral
  have hmarks := not_mem_otherMarks hc
  rw [hchars, List.cons_append] at hread ⊢
  rw [readValue, hread]
  · rfl
  all_goals
    rintro rfl
    exact hmarks (by decide)

theorem readValue_arr {items : List Json} (hitems : ∀ item ∈ items, item.Reads) {bound : Nat}
    (rest : List Char) (hbound : (Json.arr items).chars.length ≤ bound) :
    readValue (bound + 1) ((Json.arr items).chars ++ rest) = some (.arr items, rest) := by
  cases items with
  | nil => rfl
  | cons item items =>
    obtain ⟨hitem, hitems⟩ := List.forall_mem_cons.mp hitems
    simp only [chars, List.length_cons, List.length_append] at hbound
    obtain ⟨bound, rfl⟩ : ∃ fewer, bound = fewer + 1 := ⟨bound - 1, by omega⟩
    have hread := hitem.readValue_eq bound (itemChars items ++ rest) (by omega) (by simp)
    have hopens := hitem.opens.append (itemChars items ++ rest)
    simp only [chars, List.cons_append, List.append_assoc]
    rw [readValue, hopens.skipBlanks_eq]
    obtain ⟨c, tail, htext, -, hclose, -⟩ := hopens
    split
    · next heq => exact absurd (List.cons.inj (htext.symm.trans heq)).1 hclose
    · rw [hread]
      simp only [Option.bind_eq_bind, Option.bind_some, skipBlanks_itemChars,
        readItems_itemChars hitems bound rest (by omega), Option.pure_def]

theorem readValue_obj {members : List (Option String × Json)}
    (hmembers : ∀ member ∈ members, member.2.Reads) {bound : Nat} (rest : List Char)
    (hbound : (Json.obj members).chars.length ≤ bound) :
    readValue (bound + 1) ((Json.obj members).chars ++ rest) = some (.obj members, rest) := by
  cases members with
  | nil => rfl
  | cons member members =>
    obtain ⟨key, value⟩ := member
    obtain ⟨hvalue, hmembers⟩ := List.forall_mem_cons.mp hmembers
    simp only [chars, List.length_cons, List.length_append] at hbound
    obtain ⟨bound, rfl⟩ : ∃ fewer, bound = fewer + 2 := ⟨bound - 2, by omega⟩
    have hread := readMember_append key hvalue (ends_memberChars members rest)
      (show value.chars.length ≤ bound by omega)
    have hopens := (opens_quotedChars key).append
      (':' :: (value.chars ++ (memberChars members ++ rest)))
    simp only [chars, List.cons_append, List.append_assoc]
    rw [readValue, hopens.skipBlanks_eq]
    obtain ⟨c, tail, htext, -, -, hclose⟩ := hopens
    split
    · next heq => exact absurd (List.cons.inj (htext.symm.trans heq)).1 hclose
    · rw [hread]
      simp only [Option.bind_eq_bind, Option.bind_some, skipBlanks_memberChars,
        readMembers_memberChars hmembers (bound + 1) rest (by omega), Option.pure_def]

theorem WellFormed.reads {json : Json} (hjson : json.WellFormed) : json.Reads := by
  refine ⟨hjson.opens, fun bound rest hbound hrest => ?_⟩
  induction hjson generalizing bound rest with
  | null => rfl
  | bool value => cases value <;> rfl
  | num hnumeral => exact readValue_numeralChars hnumeral bound hrest
  | str content =>
    obtain ⟨inner, hinner, hstring⟩ := readString_quotedChars content rest
    rw [chars, hinner, List.cons_append, readValue, hstring]
    rfl
  | arr hitems ih =>
    exact readValue_arr (fun item hitem => ⟨(hitems item hitem).opens, ih item hitem⟩) rest hbound
  | obj hmembers ih =>
    exact readValue_obj (fun member hmember => ⟨(hmembers member hmember).opens, ih member hmember⟩)
      rest hbound

/-- A document whose numerals are well formed is read back from its compact text. -/
theorem parse?_compact {json : Json} (hjson : json.WellFormed) :
    parse? json.compact = some json := by
  obtain ⟨hopens, hread⟩ := hjson.reads
  have hvalue := hread json.chars.length [] le_rfl ends_nil
  rw [List.append_nil] at hvalue
  have hblank : skipBlanks [] = [] := rfl
  simp [parse?, compact, hopens.skipBlanks_eq, hvalue, hblank]

/-! ## Nesting -/

mutual

/-- How many arrays and objects stand one inside the other, at most. -/
def nesting : Json → Nat
  | .arr items => itemNesting items + 1
  | .obj members => memberNesting members + 1
  | _ => 0

def itemNesting : List Json → Nat
  | [] => 0
  | item :: items => max (nesting item) (itemNesting items)

def memberNesting : List (Option String × Json) → Nat
  | [] => 0
  | (_, value) :: members => max (nesting value) (memberNesting members)

end

@[simp] theorem nesting_tagged (tag : String) (content : Json) :
    (tagged tag content).nesting = content.nesting + 1 := by
  simp [tagged, ofMembers, nesting, memberNesting]

end Json

end ContentRules
