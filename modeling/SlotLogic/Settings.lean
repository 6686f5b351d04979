import SlotLogic.Cache
import SlotLogic.Rule.Statement

/-!
Contract: the settings of the program and the reader that follows them.

Owns: the environment variables with their defaults, the faults of a setting,
and reading with a store of statements that were read before.

A statement is stored under its text together with the mode in which it was
read, so that a strict and a lenient reading of one text never meet.

Does not own: reading itself.
-/

set_option autoImplicit false

namespace SlotLogic

open SlotLogic.Text

structure Settings where
  capacity : Nat
  lenient : Bool
  compiled : Bool
deriving DecidableEq, Repr

inductive SettingsFault where
  | capacity (fault : IntegerFault)
  | capacityTooLarge
deriving DecidableEq, Repr

def SettingsFault.message : SettingsFault → String
  | .capacity fault => fault.message
  | .capacityTooLarge => "cannot fit 'int' into an index-sized integer"

namespace Settings

def default : Settings :=
  ⟨512, false, true⟩

/-- The greatest capacity of a store. -/
def greatestCapacity : Int := 9223372036854775807

/-- The capacity that a text asks for; a store holds one statement at least. -/
def readCapacity (text : String) : Except SettingsFault Nat := do
  let asked ← (readInteger text.toList).mapError .capacity
  if greatestCapacity < asked then .error .capacityTooLarge
  else return (max 1 asked).toNat

def isOn (environment : List (String × String)) (name : String) : Bool :=
  environment.lookup name == some "1"

def ofEnvironment (environment : List (String × String)) : Except SettingsFault Settings := do
  let capacity ←
    match environment.lookup "SECEL_PARSE_CACHE_MAX" with
    | some text => readCapacity text
    | none => .ok default.capacity
  return {
    capacity
    lenient := isOn environment "SECEL_ALLOW_TRAILING_INPUT"
    compiled := !isOn environment "SECEL_BATCH_DISABLE_JIT" }

end Settings

/-- A text with the mode in which it is read. -/
structure ReadKey where
  text : List Char
  lenient : Bool
deriving DecidableEq, Repr

/-- The statements that were read before. -/
abbrev StatementCache := Cache ReadKey Expr

/-- Read a statement that may be stored. Where no mode is asked for, the settings
decide. -/
def StatementCache.parse (settings : Settings) (cache : StatementCache) (text : List Char)
    (mode : Option Bool) : Except ReadFault Expr × StatementCache :=
  Cache.fetch (fun key : ReadKey => SlotLogic.parse key.lenient key.text) cache
    ⟨text, mode.getD settings.lenient⟩

end SlotLogic
