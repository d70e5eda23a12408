import BuildQueue.Record

/-!
# Sample records

Records of a small project with two builders and two codebases, for tests and examples.
-/

namespace BuildQueue
namespace Sample

def repository : String := "git://example.com/repo.git"
def otherRepository : String := "git://example.com/other.git"
def project : String := "proj"
def mainCodebase : String := "main"
def libCodebase : String := "lib"

/-- When the sample changes were made. -/
def submittedAt : Timestamp := ⟨1300305712⟩

def linux : Builder := ⟨⟨77⟩, "linux"⟩
def mac : Builder := ⟨⟨78⟩, "mac"⟩

/-- A source stamp of the main branch without a patch. -/
def sourceStamp (id : SourceStampId) (codebase : String) (revision : Option String) :
    SourceStamp where
  id
  codebase
  repository
  branch := some "main"
  project
  revision
  patch := none

/-- The text of the sample patch. -/
def patchBody : String := "--- a/f\n+++ b/f\n"

/-- A patch that touches one file. -/
def patch : Patch where
  level := 1
  body := patchBody.toUTF8.toList
  subdir := some "."
  author := some "alice"
  comment := some "try this"

/-- A source stamp with the sample patch on top. -/
def patched (stamp : SourceStamp) : SourceStamp := { stamp with patch := some patch }

/-- A change without properties. -/
def change (id : ChangeId) (author revision : String) : Change where
  id
  author
  revision := some revision
  time := some submittedAt
  properties := ∅

/-- The properties that a scheduler sets: its own name and some named texts. -/
def schedulerProperties (scheduler : String) (texts : List (String × String)) : Properties :=
  texts.foldl
    (fun properties (name, text) => properties.set name (.string text) Properties.schedulerSource)
    ((∅ : Properties).set Properties.schedulerProperty (.string scheduler)
      Properties.schedulerSource)

end Sample
end BuildQueue
