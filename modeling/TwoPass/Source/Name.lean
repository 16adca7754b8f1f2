import TwoPass.Text.Blank

/-!
# Names of sources

Diagnostics, warnings and events name the source they come from. A text need not come from a file; it
is then assembled under a name made up for it, or under none at all.
-/

namespace TwoPass

/-- The name under which a source is assembled. -/
inductive SourceName where
  /-- a name -/
  | named (name : Text)
  /-- no name -/
  | nameless
  deriving DecidableEq

namespace SourceName

/-- The name of a text that was given none. -/
def input : SourceName := named "<input>".toList

instance : Inhabited SourceName := ⟨input⟩

/-- How the source is called. -/
def text : SourceName → Text
  | named name => name
  | nameless => "None".toList

/-- The name, if there is one. -/
def name? : SourceName → Option Text
  | named name => some name
  | nameless => none

end SourceName

end TwoPass
