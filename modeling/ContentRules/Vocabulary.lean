import ContentRules.Reference.Basic

/-!
# The vocabulary of the content model

The names of the types, aspects, relations and properties that the repository itself and the
built-in rules know.
-/

namespace ContentRules.Vocabulary

/-- A name of the content model. -/
def contentName (localName : String) : QualifiedName :=
  ⟨"http://www.ferrule.org/model/content/1.0", localName⟩

/-- A name of the repository's own model. -/
def systemName (localName : String) : QualifiedName :=
  ⟨"http://www.ferrule.org/model/system/1.0", localName⟩

/-! ## Types of nodes -/

def storeRootType : QualifiedName := systemName "storeroot"

def folderType : QualifiedName := contentName "folder"

def contentType : QualifiedName := contentName "content"

/-- The type of the folder that belongs to an actionable node. -/
def configurationsType : QualifiedName := contentName "configurations"

/-- The type of the folder that holds those of a store. -/
def systemFolderType : QualifiedName := contentName "systemfolder"

/-! ## Aspects -/

/-- The node has a configuration folder and may have rules. -/
def actionableAspect : QualifiedName := contentName "actionable"

/-- The node is a copy. -/
def copiedFromAspect : QualifiedName := contentName "copiedfrom"

def titledAspect : QualifiedName := contentName "titled"

def versionableAspect : QualifiedName := contentName "versionable"

/-! ## Relations -/

/-- A folder and what it contains. -/
def containsRelation : QualifiedName := contentName "contains"

/-- A store root and the repository's own nodes beneath it. -/
def childrenRelation : QualifiedName := systemName "children"

/-- An actionable node and its configuration folder. -/
def configurationsRelation : QualifiedName := contentName "configurations"

/-! ## Properties -/

def nameProperty : QualifiedName := contentName "name"

def titleProperty : QualifiedName := contentName "title"

def descriptionProperty : QualifiedName := contentName "description"

/-- The node that a copy was made from. -/
def copyReferenceProperty : QualifiedName := contentName "copyReference"

/-! ## Names of children -/

def systemConfigurationChild : QualifiedName := systemName "systemconfiguration"

def configurationsChild : QualifiedName := systemName "configurations"

/-! ## Keywords -/

/-- The whole vocabulary, by the keywords that stand for its names. -/
def keywords : List (String × QualifiedName) :=
  [("TYPE_STORE_ROOT", storeRootType), ("TYPE_FOLDER", folderType), ("TYPE_CONTENT", contentType),
    ("TYPE_CONFIGURATIONS", configurationsType), ("TYPE_SYSTEM_FOLDER", systemFolderType),
    ("ASPECT_ACTIONABLE", actionableAspect), ("ASPECT_COPIED_FROM", copiedFromAspect),
    ("ASPECT_TITLED", titledAspect), ("ASPECT_VERSIONABLE", versionableAspect),
    ("ASSOC_CONTAINS", containsRelation), ("ASSOC_CHILDREN", childrenRelation),
    ("ASSOC_CONFIGURATIONS", configurationsRelation), ("PROP_NAME", nameProperty),
    ("PROP_TITLE", titleProperty), ("PROP_DESCRIPTION", descriptionProperty),
    ("PROP_COPY_REFERENCE", copyReferenceProperty),
    ("CHILD_SYSTEM_CONFIGURATION", systemConfigurationChild),
    ("CHILD_CONFIGURATIONS", configurationsChild)]

end ContentRules.Vocabulary
