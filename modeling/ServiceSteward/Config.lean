import ServiceSteward.Text
/-!
# Config — a loaded configuration

The property map is a `BTreeMap`: its names are in strictly ascending order, so each has one value.  Every sorted map is a
configuration here; `ConfigLoader` says which ones a load produces.
-/
namespace Jss

inductive WarningLevel where
  | info | warn
  deriving DecidableEq, Repr

structure Warning where
  level : WarningLevel
  message : Text
  deriving DecidableEq, Repr

structure Config where
  properties : List (Text × Text)
  warnings : List Warning := []
  sorted : (properties.map Prod.fst).Pairwise (· < ·) := by decide

namespace Config

def get (config : Config) (name : Text) : Option Text := config.properties.lookup name

def getOr (config : Config) (name default : Text) : Text := (config.get name).getD default

def getBool (config : Config) (name : Text) (default : Bool) : Bool :=
  match config.get name with
  | none => default
  | some value =>
    let value := value.trim.toAsciiLowercase
    value == "true".toList || value == "yes".toList || value == "1".toList || value == "on".toList

def getU64 (config : Config) (name : Text) (default : Nat) : Nat :=
  ((config.get name).bind (fun value => Text.parseUnsigned Text.u64Max value.trim)).getD default

/-- The loop of `numbered` from an index on.  It ends at the first missing index, so it makes at most one turn more
than there are properties. -/
def numberedFrom (config : Config) (pre : Text) : Nat → Nat → List (Nat × Text)
  | 0, _ => []
  | fuel + 1, index =>
    match config.get (pre ++ '.' :: Text.ofNat index) with
    | none => []
    | some value => (index, value) :: config.numberedFrom pre fuel (index + 1)

def numbered (config : Config) (pre : Text) : List (Nat × Text) :=
  if config.getBool "wrapper.ignore_sequence_gaps" false then
    (config.properties.filterMap (fun (name, value) =>
      if (pre ++ ['.']).isPrefixOf name then
        ((Text.parseUnsigned Text.u32Max (name.drop (pre.length + 1))).filter (0 < ·)).map (·, value)
      else none)).mergeSort (fun a b => a.1 ≤ b.1)
  else config.numberedFrom pre (config.properties.length + 1) 1

end Config

def removeGroupingQuotes (value : Text) : Text :=
  if value.length ≥ 2 && ((value.head? == some '"' && value.getLast? == some '"') ||
      (value.head? == some '\'' && value.getLast? == some '\'')) then value.tail.dropLast
  else value

end Jss
