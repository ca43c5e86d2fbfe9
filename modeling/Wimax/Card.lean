import Wimax.Event
import Wimax.Request

/-!
A card that plays a script. Without one it is healthy and sees a single network. For each command
it can be given cues, which are used once and in order, and a standing reply; notices can be given
with their times. So a script can tell whatever a card may do in the course of a run.
-/

namespace Wimax

/-- How a call ends that has been hanging. -/
inductive Ending
  /-- As if there had been no cue. -/
  | uncued
  | reply (reply : Reply)
  | fault (text : String)
  deriving DecidableEq, Repr

/-- What happens at the next call of a command. -/
inductive Cue
  | reply (reply : Reply)
  | fault (text : String)
  /-- The call hangs for so many milliseconds. -/
  | stall (millis : Nat) (ending : Ending := .uncued)
  deriving DecidableEq, Repr

structure Card where
  cues : List (Command × Cue) := []
  standing : List (Command × Reply) := []
  /-- The notices that are to come of the card's own accord, with their times. -/
  notices : List (Nat × Notice) := []
  /-- Every request that reached the card, the newest first. -/
  log : List Request := []
  connected : Bool := false
  /-- The raw signal strength of the built-in link figures. -/
  linkRssi : UInt8 := 63
  deriving DecidableEq, Repr

namespace Card

def push (card : Card) (c : Command) (cue : Cue) : Card :=
  { card with cues := card.cues ++ [(c, cue)] }

def setStanding (card : Card) (c : Command) (reply : Reply) : Card :=
  { card with standing := (c, reply) :: card.standing.filter (·.1 ≠ c) }

def clearStanding (card : Card) (c : Command) : Card :=
  { card with standing := card.standing.filter (·.1 ≠ c) }

def takeNotices (card : Card) (now : Nat) : List Notice × Card :=
  let (due, later) := card.notices.partition (·.1 ≤ now)
  (due.map (·.2), { card with notices := later })

def requests (card : Card) : List Request := card.log.reverse

def callCount (card : Card) (c : Command) : Nat := card.log.countP (·.command == c)

def forgetRequests (card : Card) : Card := { card with log := [] }

def builtinNetwork (name : String) (id : UInt32) : Network where
  name
  id
  rssi := 60
  cinr := 25
  kind := 0

def builtinLink (rssi : UInt8) : Link where
  centerFrequency := 2593000
  rssi
  cinr := 30
  txPower := 180
  bsid := ⟨#v[0x00, 0x00, 0x01, 0x80, 0x00, 0x01]⟩

def builtinTraffic : Traffic where
  rxBytes := 4096
  txBytes := 1024
  rxPackets := 8
  txPackets := 4

def builtinAttachment : Attachment where
  name := "CLEAR"
  realm := "clearwire-wmx.net"
  id := 1
  activated := true
  rssi := 60
  cinr := 25
  kind := 0

def builtinIdentity : Identity where
  hardware := ⟨"hw", "1.0"⟩
  mac := #v[0x00, 0x1d, 0xe1, 0x00, 0x00, 0x01]
  vendor := "Scripted"

/-- The reply of a healthy card, which has link figures, traffic and a provider only while it is
connected. -/
def healthyReply (connected : Bool) (linkRssi : UInt8) : Command → Reply
  | .listDevices => .reading (.devices [⟨0, "wimax0", 1⟩])
  | .deviceStatus =>
    .reading (if connected then .radio .dataConnected (some .registered) else .radio .ready none)
  | .networkList => .reading (.networks [builtinNetwork "CLEAR" 1])
  | .linkStatus =>
    if connected then .reading (.link (builtinLink linkRssi)) else ⟨.linkNotConnected, .nothing⟩
  | .ipInterface => .reading (.interface "wmx0")
  | .statistics =>
    if connected then .reading (.traffic builtinTraffic) else ⟨.linkNotConnected, .nothing⟩
  | .connectedNsp =>
    if connected then .reading (.attachment builtinAttachment) else ⟨.linkNotConnected, .nothing⟩
  | .deviceInfo => .reading (.identity builtinIdentity)
  | .packageInfo => .reading (.package {})
  | .provisioningStatus => .reading (.provisioned true)
  | .contactInfo => .reading (.contacts [])
  | _ => ⟨.success, .nothing⟩

def uncuedReply (card : Card) (c : Command) : Reply :=
  match card.standing.find? (·.1 == c) with
  | some (_, reply) => reply
  | none => healthyReply card.connected card.linkRssi c

/-- Whether the card is connected after it has answered a command with the given response. -/
def connectedAfter (connected : Bool) (c : Command) (response : Response) : Bool :=
  match c with
  | .connect => connected || response == .success || response == .alreadyConnected
  | .disconnect | .deviceClose => false
  | _ => connected

def answer (card : Card) (c : Command) (reply : Reply) : Outcome × Card :=
  (.reply reply, { card with connected := connectedAfter card.connected c reply.response })

def answerUncued (card : Card) (c : Command) : Outcome × Card := card.answer c (card.uncuedReply c)

def conclude (card : Card) (c : Command) : Ending → Outcome × Card
  | .uncued => card.answerUncued c
  | .reply reply => card.answer c reply
  | .fault text => (.fault text, card)

def takeCue (card : Card) (c : Command) : Option Cue × Card :=
  ((card.cues.find? (·.1 == c)).map (·.2),
    { card with cues := card.cues.eraseP (·.1 == c) })

/-- What a call does at once: it ends, or it hangs for a time. -/
inductive Start
  | ended (outcome : Outcome)
  | hangs (millis : Nat) (ending : Ending)
  deriving DecidableEq, Repr

def begin (card : Card) (r : Request) : Start × Card :=
  let (cue, card) := { card with log := r :: card.log }.takeCue r.command
  match cue with
  | some (.reply reply) => let (o, card) := card.answer r.command reply; (.ended o, card)
  | some (.fault text) => (.ended (.fault text), card)
  | some (.stall n ending) => (.hangs n ending, card)
  | none => let (o, card) := card.answerUncued r.command; (.ended o, card)

end Card

end Wimax
