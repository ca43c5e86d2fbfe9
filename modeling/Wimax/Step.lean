import Wimax.Driver

/-! What one step of a scripted phase ends with. -/

namespace Wimax

inductive Verdict
  | underway
  /-- The radio is busy or sees no network; the step is taken again later. -/
  | scanning
  | finished
  | failed
  deriving DecidableEq, Repr

/-- What a phase tells callers about its progress. -/
inductive Message
  | scanning | noNetwork | deviceRemoved | cardInvalid | cardMissing | callFailure
  deriving DecidableEq, Repr

def Message.text : Message → String
  | scanning => "Scanning for best possible connection."
  | noNetwork => "No WiMax network found."
  | deviceRemoved => "Device removed."
  | cardInvalid => "Card is invalid."
  | cardMissing => "WiMax card missing, cannot initialize."
  | callFailure => "Call failure."

/-- The phase and the driver after a step, with its verdict and message. -/
structure Step (φ : Type) where
  phase : φ
  driver : Driver
  verdict : Verdict
  message : Option Message := none
  deriving DecidableEq, Repr

/-- The message for a card lost with the given response. An invalid device may be a pulled card or
a broken one, so the cards are listed again to tell which. -/
def Driver.lossMessage (d : Driver) (response : Response) : Dialog (Driver × Message) :=
  if response = .invalidDevice then do
    let (d, present) ← d.cardPresent
    return (d, if present then .cardInvalid else .cardMissing)
  else .done (d, .cardMissing)

end Wimax
