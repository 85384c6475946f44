import DualStack.Instruction

/-!
# Events

Every instruction that takes effect is an event, which records the words it worked with. An event
knows its instruction (`Event.instruction`) and where it sends control (`Event.target?`), and its
text begins with the mnemonic.
-/

set_option autoImplicit false
set_option relaxedAutoImplicit false

namespace DualStack

/-- An instruction that took effect, with the words it worked with. -/
inductive Event
  /-- A value was pushed. -/
  | lit (value : Word)
  /-- The value stored at an address was pushed. -/
  | fetch (address value : Word)
  /-- A value was stored at an address. -/
  | store (value address : Word)
  | drop (value : Word)
  | dup (value : Word)
  /-- The element below the top was pushed. -/
  | copyBelow (below top : Word)
  /-- The two topmost elements, as they were, changed places. -/
  | swap (below top : Word)
  | add
  | sub
  | and
  | or
  | xor
  /-- A condition chose between going to a target and going on. -/
  | jumpIfZero (target condition : Word)
  | call (target : Word)
  | exit (target : Word)
  | halt
  | toReturn (value : Word)
  | fromReturn (value : Word)
  deriving DecidableEq, Repr

namespace Event

/-- The instruction that took effect. -/
def instruction : Event → Instruction
  | lit _ => .lit
  | fetch _ _ => .fetch
  | store _ _ => .store
  | drop _ => .drop
  | dup _ => .dup
  | copyBelow _ _ => .copyBelow
  | swap _ _ => .swap
  | add => .add
  | sub => .sub
  | and => .and
  | or => .or
  | xor => .xor
  | jumpIfZero _ _ => .jumpIfZero
  | call _ => .call
  | exit _ => .exit
  | halt => .halt
  | toReturn _ => .toReturn
  | fromReturn _ => .fromReturn

/-- The address control is sent to, if it is not to go on in the ordinary course. -/
def target? : Event → Option Word
  | jumpIfZero target condition => if condition = 0 then some target else none
  | call target => some target
  | exit target => some target
  | _ => none

/-- What follows the mnemonic in the text of an event. -/
def details : Event → String
  | lit value | drop value | dup value | toReturn value | fromReturn value =>
    " " ++ toString value.toNat
  | call target | exit target => " " ++ toString target.toNat
  | fetch address value => " " ++ toString address.toNat ++ ": " ++ toString value.toNat
  | store value address => " " ++ toString value.toNat ++ " " ++ toString address.toNat
  | copyBelow below top | swap below top =>
    " " ++ toString below.toNat ++ " " ++ toString top.toNat
  | jumpIfZero target condition =>
    " " ++ toString target.toNat ++ ": " ++ toString condition.toNat
  | add | sub | and | or | xor | halt => ""

/-- The text of an event. -/
def text (event : Event) : String := event.instruction.mnemonic ++ event.details

end Event

end DualStack
