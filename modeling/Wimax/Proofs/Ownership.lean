import Wimax.Card
import Wimax.Proofs.CallTrace

/-!
Fields of the record and the commands that own them. A command writes none but its own fields. One
that asks for a reading has lost it after an answer that does not bring it, while a call that is not
answered leaves the reading of an earlier call in place.
-/

namespace Wimax

/-- A field of the record. The flag of each channel is a field of its own. -/
inductive Field
  | devices | present | status | phase | networks | link | interface | traffic | attachment
  | identity | package | provisioned | contacts | apiOpen | deviceOpen
  | channel (ch : Channel)
  deriving DecidableEq, Repr

def Field.Content : Field → Type
  | devices => List Device
  | present => Option Bool
  | status => Option RadioStatus
  | phase => Option AttachPhase
  | networks => List Network
  | link => Option Link
  | interface => Option String
  | traffic => Option Traffic
  | attachment => Option Attachment
  | identity => Option Identity
  | package => Option Package
  | provisioned => Option Bool
  | contacts => List Contact
  | apiOpen | deviceOpen | channel _ => Bool

namespace Record

def get (r : Record) : (f : Field) → f.Content
  | .devices => r.devices
  | .present => r.present
  | .status => r.status
  | .phase => r.phase
  | .networks => r.networks
  | .link => r.link
  | .interface => r.interface
  | .traffic => r.traffic
  | .attachment => r.attachment
  | .identity => r.identity
  | .package => r.package
  | .provisioned => r.provisioned
  | .contacts => r.contacts
  | .apiOpen => r.apiOpen
  | .deviceOpen => r.deviceOpen
  | .channel ch => r.subscriptions.has ch

/-- Nothing is known for the field, as in the record of a new driver. -/
def Lacks (r : Record) (f : Field) : Prop := r.get f = ({} : Record).get f

end Record

theorem Channel.exists_index (i : Fin 8) : ∃ ch : Channel, ch.index = i := by
  have h : ∀ i, i ∈ Channel.all.map Channel.index := by decide
  obtain ⟨ch, -, hch⟩ := List.mem_map.mp (h i)
  exact ⟨ch, hch⟩

theorem Subscriptions.eq_of_has {s s' : Subscriptions} (h : ∀ ch, s.has ch = s'.has ch) :
    s = s' := by
  obtain ⟨flags⟩ := s
  obtain ⟨flags'⟩ := s'
  congr
  refine Vector.ext fun i hi => ?_
  obtain ⟨ch, hch⟩ := Channel.exists_index ⟨i, hi⟩
  simpa [has, hch] using h ch

theorem Record.eq_of_get {r r' : Record} (h : ∀ f, r.get f = r'.get f) : r = r' := by
  have hs : r.subscriptions = r'.subscriptions :=
    Subscriptions.eq_of_has fun ch => h (.channel ch)
  cases r
  cases r'
  congr
  exacts [h .devices, h .present, h .status, h .phase, h .networks, h .link, h .interface,
    h .traffic, h .attachment, h .identity, h .package, h .provisioned, h .contacts, h .apiOpen,
    h .deviceOpen]

namespace Command

/-- The readings a command asks for, with the identity that goes when no card is listed. -/
def readings : Command → List Field
  | listDevices => [.devices, .identity]
  | networkList => [.networks]
  | deviceStatus => [.status, .phase]
  | linkStatus => [.link]
  | ipInterface => [.interface]
  | statistics => [.traffic]
  | connectedNsp => [.attachment]
  | deviceInfo => [.identity]
  | packageInfo => [.package]
  | provisioningStatus => [.provisioned]
  | contactInfo => [.contacts]
  | _ => []

/-- The fields a command may write. -/
def owned : Command → List Field
  | apiOpen => [.apiOpen]
  | apiClose => .apiOpen :: .deviceOpen :: Channel.all.map .channel
  | deviceOpen | deviceClose => [.deviceOpen]
  | connect => [.link, .traffic]
  | subscribe ch | unsubscribe ch => [.channel ch]
  | c => c.readings

end Command

namespace Record

variable {c : Command} {f : Field}

theorem get_setSubscribed {ch : Channel} (hf : f ≠ .channel ch) (r : Record) (on : Bool) :
    (r.setSubscribed ch on).get f = r.get f := by
  cases f with
  | channel ch' =>
    have hne : ch ≠ ch' := fun e => hf (e ▸ rfl)
    change (r.subscriptions.set ch on).has ch' = r.subscriptions.has ch'
    simp [hne]
  | _ => rfl

theorem get_closed (hf : f ∉ Command.apiClose.owned) (r : Record) : r.closed.get f = r.get f := by
  cases f with
  | apiOpen => exact absurd (by decide) hf
  | deviceOpen => exact absurd (by decide) hf
  | channel ch => simp [Command.owned, Channel.mem_all] at hf
  | _ => rfl

theorem get_store (hf : f ∉ c.owned) (r : Record) (reply : Reply) :
    (r.store c reply).get f = r.get f := by
  cases c with
  | apiClose =>
    by_cases hs : reply.response.isSuccess
    · simp only [store, hs, ↓reduceIte]
      exact get_closed hf r
    · simp [store, hs]
  | _ => cases f <;> first | rfl | exact absurd (by decide) hf

theorem get_beforeCall (hf : f ∉ c.owned) (r : Record) :
    (Driver.beforeCall r c).get f = r.get f := by
  by_cases hc : c = .connect
  · subst hc
    cases f <;> first | rfl | exact absurd (by decide) hf
  · simp [Driver.beforeCall, hc]

theorem get_atCall (hf : f ∉ c.owned) (r : Record) : (r.atCall c).get f = r.get f := by
  cases c with
  | unsubscribe ch => exact get_setSubscribed (by simpa [Command.owned] using hf) r false
  | _ => exact get_beforeCall hf r

theorem get_afterCall (hf : f ∉ c.owned) (r : Record) (o : Outcome) :
    (r.afterCall c o).get f = r.get f := by
  cases o with
  | reply reply =>
    cases c with
    | subscribe ch =>
      simp only [afterCall]
      split
      · exact get_setSubscribed (by simpa [Command.owned] using hf) r true
      · rfl
    | _ => exact (get_store hf _ reply).trans (get_atCall hf r)
  | _ => exact get_atCall hf r

end Record

namespace Driver

variable {d d' : Driver} {c : Command} {args : Args} {acts : List Act}
  {result : Except Fault Response}

/-- A command writes its own fields at most. One that costs no call changes nothing, apart from the
flag that a command about a channel sets without notices. -/
theorem writes_only_owned (h : (d.perform c args).Runs acts (d', result)) :
    d'.settings = d.settings ∧ (∀ f ∉ c.owned, d'.record.get f = d.record.get f) ∧
      (c.owned = [] → d' = d) ∧
      (acts = [] → d' = d ∨ d.settings.notices = false ∧ ∃ ch on,
        (c = .subscribe ch ∧ on = true ∨ c = .unsubscribe ch ∧ on = false) ∧
          d' = { d with record := d.record.setSubscribed ch on }) := by
  have hframe : d'.settings = d.settings ∧ ∀ f ∉ c.owned, d'.record.get f = d.record.get f := by
    rcases runs_perform h with ⟨response, hs, -, -⟩ | ⟨o, -, -, rfl, -⟩
    · rcases driver_of_settled? hs with rfl | ⟨-, ch, on, hc, rfl⟩
      · exact ⟨rfl, fun f hf => rfl⟩
      · refine ⟨rfl, fun f hf => Record.get_setSubscribed ?_ _ on⟩
        rcases hc with ⟨rfl, -⟩ | ⟨rfl, -⟩ <;> simpa [Command.owned] using hf
    · exact ⟨rfl, fun f hf => Record.get_afterCall hf d.record o⟩
  refine ⟨hframe.1, hframe.2, fun hc => ?_, fun hacts => ?_⟩
  · have hrecord : d'.record = d.record :=
      Record.eq_of_get fun f => hframe.2 f (by simp [hc])
    exact congrArg₂ Driver.mk hframe.1 hrecord
  · rcases runs_perform h with ⟨response, hs, -, -⟩ | ⟨o, -, hcall, -, -⟩
    · exact driver_of_settled? hs
    · simp [hcall] at hacts

/-- A driver that has been told link figures. -/
def linked : Driver :=
  ({ settings := {} } : Driver).afterCall .linkStatus
    (.reply (.reading (.link (Card.builtinLink 63))))

theorem writes_only_owned_linked :
    ∃ d', (linked.perform .networkList .nothing).Runs
        [.call ⟨.networkList, .nothing⟩ (.reply (.reading (.link (Card.builtinLink 10))))]
        (d', .ok .success) ∧ d'.record.get .link = some (Card.builtinLink 63) := by
  have hruns : (linked.perform .networkList .nothing).Runs
      [.call ⟨.networkList, .nothing⟩ (.reply (.reading (.link (Card.builtinLink 10))))] _ :=
    .ask _ _ _ _ _ (.done _)
  exact ⟨_, hruns, (writes_only_owned hruns).2.1 .link (by decide)⟩

end Driver

/-- The payload is a reading that the command asks for. -/
def Payload.suits : Command → Payload → Bool
  | .listDevices, .devices _ | .networkList, .networks _ | .deviceStatus, .radio _ _ => true
  | .linkStatus, .link _ | .ipInterface, .interface _ | .statistics, .traffic _ => true
  | .connectedNsp, .attachment _ | .deviceInfo, .identity _ | .packageInfo, .package _ => true
  | .provisioningStatus, .provisioned _ | .contactInfo, .contacts _ => true
  | _, _ => false

/-- What counts of an answer: lists and the radio status only with a success. -/
def Reply.heard (r : Reply) : Command → Payload
  | .listDevices | .networkList | .deviceStatus => r.successPayload
  | _ => r.payload

/-- The call has brought the reading it was made for. -/
def Outcome.delivers (c : Command) : Outcome → Bool
  | reply answer => (answer.heard c).suits c
  | fault _ | timedOut => false

namespace Record

variable {c : Command} {f : Field} {reply : Reply}

/-- An answer without the reading counts as a failure without payload. -/
theorem store_eq_of_not_suits (hc : c.readings ≠ []) (h : (reply.heard c).suits c = false)
    (r : Record) : r.store c reply = r.store c ⟨.failed, .nothing⟩ := by
  cases c <;> try exact absurd rfl hc
  case listDevices | networkList | deviceStatus =>
    simp only [Reply.heard] at h
    simp only [store]
    cases hp : reply.successPayload <;> first | rfl | simp [hp, Payload.suits] at h
  all_goals
    simp only [Reply.heard] at h
    simp only [store]
    cases hp : reply.payload <;> first | rfl | simp [hp, Payload.suits] at h

theorem lacks_store (hf : f ∈ c.readings) (h : (reply.heard c).suits c = false) (r : Record) :
    (r.store c reply).Lacks f := by
  have hc : c.readings ≠ [] := List.ne_nil_of_mem hf
  rw [store_eq_of_not_suits hc h]
  cases c <;> simp only [Command.readings, List.mem_cons, List.not_mem_nil, or_false] at hf
  case listDevices | deviceStatus => rcases hf with rfl | rfl <;> rfl
  all_goals
    subst hf
    rfl

theorem afterCall_of_readings (hc : c.readings ≠ []) (r : Record) (o : Outcome) :
    r.afterCall c o = (o.reply?.map (r.store c)).getD r := by
  cases c <;> first | exact absurd rfl hc | cases o <;> rfl

end Record

namespace Driver

variable {d d' : Driver} {c : Command} {args : Args} {result : Except Fault Response}

/-- Once a command has been answered without its reading, the reading is gone. Without an answer it
is gone exactly if there was none before, since nothing changes then. -/
theorem lacks_readings_iff {request : Request} {o : Outcome} (hc : c.readings ≠ [])
    (h : (d.perform c args).Runs [.call request o] (d', result)) (ho : o.delivers c = false) :
    ((∀ f ∈ c.readings, d'.record.Lacks f) ↔
        (∃ reply, o = .reply reply) ∨ ∀ f ∈ c.readings, d.record.Lacks f) ∧
      ((¬∃ reply, o = .reply reply) →
        d' = d ∧ (d.attempt c args).Runs [.call request o] (d', .failed)) := by
  rcases runs_perform h with ⟨response, -, hacts, -⟩ | ⟨o', hs, hacts, rfl, -⟩
  · simp at hacts
  obtain ⟨rfl, rfl⟩ : request = ⟨c, d.callArgs c args⟩ ∧ o = o' := by simpa using hacts
  have hrecord := Record.afterCall_of_readings hc d.record o
  cases o with
  | reply reply =>
    refine ⟨⟨fun _ => .inl ⟨reply, rfl⟩, fun _ f hf => ?_⟩, fun hno => absurd ⟨reply, rfl⟩ hno⟩
    rw [record_afterCall, hrecord]
    exact Record.lacks_store hf ho d.record
  | _ =>
    have hd : d.afterCall c _ = d := congrArg (Driver.mk d.settings) hrecord
    refine ⟨by simp [hd], fun _ => ⟨hd, ?_⟩⟩
    rw [attempt_eq, hs]
    exact .ask _ _ _ _ _ (.done _)

theorem lacks_readings_iff_refused :
    ∃ d', (linked.perform .linkStatus .nothing).Runs
        [.call ⟨.linkStatus, .nothing⟩ (.reply ⟨.linkNotConnected, .nothing⟩)]
        (d', .ok .linkNotConnected) ∧ d'.record.Lacks .link := by
  have hruns : (linked.perform .linkStatus .nothing).Runs
      [.call ⟨.linkStatus, .nothing⟩ (.reply ⟨.linkNotConnected, .nothing⟩)] _ :=
    .ask _ _ _ _ _ (.done _)
  exact ⟨_, hruns,
    (lacks_readings_iff (by decide) hruns rfl).1.mpr (.inl ⟨_, rfl⟩) .link (by decide)⟩

/-- The link figures of an earlier call can outlive a call that faults. -/
theorem exists_leftover_reading :
    ∃ d d', (({ settings := {} } : Driver).attempt .linkStatus .nothing).Runs
        [.call ⟨.linkStatus, .nothing⟩ (.reply (.reading (.link (Card.builtinLink 63))))]
        (d, .success) ∧
      (d.attempt .linkStatus .nothing).Runs
        [.call ⟨.linkStatus, .nothing⟩ (.fault "no link")] (d', .failed) ∧
      ¬d'.record.Lacks .link :=
  ⟨linked, linked, .ask _ _ _ _ _ (.done _), .ask _ _ _ _ _ (.done _), nofun⟩

end Driver

end Wimax
