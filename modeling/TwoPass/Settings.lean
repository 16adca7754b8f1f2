import TwoPass.Session

/-!
# Settings

The names of the files of a run and their encoding. Each has a default that a variable of the
environment replaces; an empty variable counts as absent.
-/

namespace TwoPass

/-- The files of a run and their encoding. -/
structure Settings where
  /-- the source -/
  source : Text
  /-- the listing -/
  listing : Text
  /-- the load file -/
  load : Text
  /-- the symbol file, if one is wanted -/
  symbols : Option Text
  /-- the name of the character set -/
  encoding : Text
  deriving DecidableEq

namespace Settings

/-- The settings without an environment. -/
def default : Settings where
  source := "source.txt".toList
  listing := "listing.txt".toList
  load := "load.txt".toList
  symbols := none
  encoding := defaultEncoding

/-- The value of a variable, if it has one that is not empty. -/
def lookup? (environment : List (Text × Text)) (name : Text) : Option Text :=
  ((environment.find? fun v => v.1 == name).map Prod.snd).filter fun value => !value.isEmpty

/-- The settings of an environment. -/
def ofEnvironment (environment : List (Text × Text)) : Settings :=
  let path (name : String) : Option Text :=
    (lookup? environment name.toList).map Path.normalize
  { source := (path "C6461_SOURCE").getD default.source
    listing := (path "C6461_LISTING").getD default.listing
    load := (path "C6461_LOAD").getD default.load
    symbols := path "C6461_SYMBOLS"
    encoding := (lookup? environment "C6461_ENCODING".toList).getD default.encoding }

end Settings

end TwoPass
