import BuildQueue.Record

/-!
# Look-up keys of sources

The fields that identify a source, flattened. Sources with equal keys check out the same code and
can share a source stamp. Keys are ordered field by field, an absent field coming first.
-/

namespace BuildQueue

/-- Every field that identifies a source. -/
structure LookupKey where
  codebase : String
  repository : String
  branch : Option String
  project : String
  revision : Option String
  patchLevel : Option Int
  patchBody : Option (List UInt8)
  patchSubdir : Option String
  patchAuthor : Option String
  patchComment : Option String
deriving DecidableEq, Repr

/-- The key of a source stamp. -/
def SourceStamp.lookupKey (stamp : SourceStamp) : LookupKey where
  codebase := stamp.codebase
  repository := stamp.repository
  branch := stamp.branch
  project := stamp.project
  revision := stamp.revision
  patchLevel := stamp.patch.map (·.level)
  patchBody := stamp.patch.map (·.body)
  patchSubdir := stamp.patch.bind (·.subdir)
  patchAuthor := stamp.patch.bind (·.author)
  patchComment := stamp.patch.bind (·.comment)

/-- Compares keys field by field. -/
instance : Ord LookupKey where
  compare a b :=
    (compare a.codebase b.codebase).then <|
    (compare a.repository b.repository).then <|
    (compare a.branch b.branch).then <|
    (compare a.project b.project).then <|
    (compare a.revision b.revision).then <|
    (compare a.patchLevel b.patchLevel).then <|
    (compare a.patchBody b.patchBody).then <|
    (compare a.patchSubdir b.patchSubdir).then <|
    (compare a.patchAuthor b.patchAuthor).then <|
    compare a.patchComment b.patchComment

end BuildQueue
