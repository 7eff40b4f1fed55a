import ContainerStack.Normal.Document
import ContainerStack.Schema.Documents

/-!
Normalization of raw documents: the version is resolved, the document tidied,
checked against the schema of its version unless that is switched off, upgraded
and brought to normal form. The first error of these steps is the result.
-/

namespace ContainerStack

/-- Whether the structure of documents is checked before their meaning. -/
inductive Checking where
  | schema
  | off
deriving DecidableEq

def Checking.check (checking : Checking) (v : FormatVersion) (doc : Json) :
    Except Schema.Violation Unit :=
  match checking with
  | .off => .ok ()
  | .schema =>
    match (Schema.ofVersion v).violation? [] doc with
    | some violation => .error violation
    | none => .ok ()

def Checking.require (checking : Checking) (v : FormatVersion) (doc : Json) : Outcome Unit :=
  match checking.check v doc with
  | .ok () => .ok ()
  | .error violation => .error (.schema violation)

/-- The composition that a raw document of any version describes. -/
def normalize (checking : Checking) (doc : Json) : Outcome Composition := do
  let v ← Document.resolveVersion doc
  let doc ← Document.tidy v doc
  checking.require v doc
  let doc ← Document.upgrade v doc
  Normal.document doc

end ContainerStack
