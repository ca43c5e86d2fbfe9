import Wimax.Caller
import Wimax.Proofs.Correspondence

/-!
The runtime of the bench is lawful, and a session on the bench takes only steps of the system. So
what holds of every run of a system on a lawful runtime holds on the bench.
-/

namespace Wimax

namespace ListQueue

variable {α : Type} {q q' : ListQueue α} {a : α}

theorem put?_eq_some_iff : q.put? a = some q' ↔
    q.isOpen = true ∧ (∀ room, q.room = some room → q.entries.length < room) ∧
      { q with entries := q.entries ++ [a] } = q' := by
  simp [put?, Option.all_eq_true, and_assoc]

theorem take?_eq_some_iff : q.take? = some (a, q') ↔
    ∃ rest, q.entries = a :: rest ∧ { q with entries := rest } = q' := by
  unfold take?
  cases q.entries <;> simp [and_assoc]

theorem take?_eq_none_iff : q.take? = none ↔ q.entries = [] := by
  unfold take?
  cases q.entries <;> simp

end ListQueue

theorem Queue.lawful_list (α : Type) : (Queue.list α).Lawful where
  isOpen_make _ := rfl
  entries_make _ := rfl
  room_make _ := rfl
  of_puts h := by
    obtain ⟨hopen, -, rfl⟩ := ListQueue.put?_eq_some_iff.mp h
    exact ⟨hopen, hopen, rfl, rfl⟩
  exists_puts hopen hroom _ := ⟨_, ListQueue.put?_eq_some_iff.mpr ⟨hopen, hroom, rfl⟩⟩
  refuses_iff := Bool.not_eq_true _ ▸ .rfl
  of_takes h := by
    obtain ⟨rest, hentries, rfl⟩ := ListQueue.take?_eq_some_iff.mp h
    exact ⟨hentries, .rfl, rfl⟩
  exists_takes h := ⟨_, ListQueue.take?_eq_some_iff.mpr ⟨_, h, rfl⟩⟩
  foundEmpty_iff := ListQueue.take?_eq_none_iff
  not_isOpen_close _ := Bool.false_ne_true
  entries_close _ := rfl
  room_close _ := rfl

theorem Slot.lawful_plain (α : Type) : (Slot.plain α).Lawful where
  not_yields_fresh _ := nofun
  not_fails_fresh := nofun
  yields_fill_iff := by simp [Slot.plain, eq_comm]
  not_fails_fill _ := nofun
  not_yields_abandon _ := nofun
  fails_abandon := rfl

namespace Clock

theorem lawful_paused : Clock.paused.Lawful where
  le_of_passes h := h.1
  le_of_isDue h := h
  expires_iff := .rfl
  exists_passes {timers} h now := by
    cases hmin : timers.min? with
    | none => exact absurd (List.min?_eq_none_iff.mp hmin) h
    | some first =>
      obtain ⟨hmem, hle⟩ := List.min?_eq_some_iff.mp hmin
      refine ⟨first, hmem, max now first, ⟨Nat.le_max_left _ _, fun moment hmoment hlater => ?_⟩,
        Nat.le_max_right _ _⟩
      exact Nat.max_le.mpr ⟨hlater, hle moment hmoment⟩

theorem punctual_paused : Clock.paused.Punctual := fun _ _ _ h => h.2

end Clock

theorem Runtime.lawful_bench : Runtime.bench.Lawful where
  orders := Queue.lawful_list Letter
  notices := Queue.lawful_list Notice
  reply := Slot.lawful_plain _
  clock := Clock.lawful_paused

namespace Session

variable {s t : Session} {settings : Settings} {d : Deed}

/-- The deeds of the session are those of a run of the system. -/
def Runs (settings : Settings) (s : Session) : Prop :=
  (System.start .bench settings).Run 0 s.history.reverse s.now s.system

theorem Runs.of_eq (h : s.Runs settings) (hsystem : t.system = s.system)
    (hhistory : t.history = s.history) (hnow : t.now = s.now) : t.Runs settings := by
  unfold Runs
  rw [hsystem, hhistory, hnow]
  exact h

theorem Runs.log (h : s.Runs settings) {system : System .bench}
    (hstep : s.system.Step s.now d system) : (s.log d system).Runs settings := by
  unfold Runs
  simp only [Session.log, List.reverse_cons]
  exact .step h hstep

theorem Runs.postNotice (h : s.Runs settings) (n : Notice) : (s.postNotice n).2.Runs settings := by
  unfold Session.postNotice
  split
  next notices hput => exact h.log (.post n hput)
  next hput =>
    have hroom := System.Run.notices_room Runtime.lawful_bench h
    refine h.log (.postRefused n ?_)
    refine Bool.eq_false_iff.mpr fun hopen => ?_
    obtain ⟨notices, hputs⟩ := Runtime.lawful_bench.notices.exists_puts (q := s.system.notices)
      hopen (fun room h => by rw [hroom] at h; cases h) n
    cases hput.symm.trans hputs

theorem Runs.postDue (h : s.Runs settings) : s.postDue.Runs settings := by
  unfold Session.postDue
  dsimp only
  generalize (s.bench.card.takeNotices s.now).1 = due
  have hs : Runs settings
      { s with bench := { s.bench with card := (s.bench.card.takeNotices s.now).2 } } :=
    h.of_eq rfl rfl rfl
  revert hs
  generalize ({ s with bench := { s.bench with card := (s.bench.card.takeNotices s.now).2 } } :
    Session) = t
  intro hs
  induction due generalizing t with
  | nil => exact hs
  | cons n rest ih => exact ih _ (hs.postNotice n)

theorem postNotice_loop (s : Session) (n : Notice) :
    (s.postNotice n).2.system.loop = s.system.loop := by
  unfold Session.postNotice
  split <;> rfl

theorem postDue_loop (s : Session) : s.postDue.system.loop = s.system.loop := by
  unfold Session.postDue
  dsimp only
  generalize (s.bench.card.takeNotices s.now).1 = due
  generalize ht : ({ s with bench := { s.bench with card := (s.bench.card.takeNotices s.now).2 } } :
    Session) = t
  have hloop : t.system.loop = s.system.loop := by rw [← ht]
  rw [← hloop]
  clear ht hloop
  induction due generalizing t with
  | nil => rfl
  | cons n rest ih => exact (ih _).trans (postNotice_loop t n)

theorem Runs.loopStep (h : s.Runs settings) (hstep : s.loopStep? = some t) : t.Runs settings := by
  unfold Session.loopStep? at hstep
  split at hstep
  case h_1 m hloop =>
    have hloop : s.postDue.system.loop = .passing m := (postDue_loop s).trans hloop
    dsimp only at hstep
    split at hstep
    next n notices htake =>
      cases hstep
      exact h.postDue.log (.loop (.receive hloop htake))
    next htake =>
      cases hstep
      exact h.postDue.log (.loop (.tick hloop htake))
  case h_2 job e rest hloop =>
    cases hstep
    exact (h.log (.loop (.publish hloop))).of_eq rfl rfl rfl
  case h_3 job r next hloop =>
    cases hstep
    exact (h.log (.loop (.ask hloop))).of_eq rfl rfl (Bench.clock_begin s.bench s.limit r)
  case h_4 job m answer hloop =>
    cases hstep
    exact h.log (.loop (.finish hloop))
  case h_5 job r next hloop =>
    split at hstep
    next o hending =>
      cases hstep
      exact h.log (.loop (.conclude hloop o))
    next hang hending =>
      split at hstep
      next hwake =>
        cases hstep
        exact (h.log (.loop (.conclude hloop _))).of_eq rfl rfl
          ((Bench.clock_finish s.bench hang).trans (Nat.max_eq_left hwake))
      next => cases hstep
    next => cases hstep
  case h_6 m deadline hloop =>
    split at hstep
    next hdue =>
      cases hstep
      exact h.log (.loop (.pass hloop hdue))
    next =>
      split at hstep
      next l orders htake =>
        cases hstep
        exact h.log (.loop (.take hloop htake))
      next htake =>
        split at hstep
        next hreleased =>
          cases hstep
          exact h.log (.loop (.leave hloop hreleased htake))
        next => cases hstep
  case h_7 => cases hstep

theorem Runs.overStep (h : s.Runs settings) {e : Errand} (haway : s.system.caller = .away e)
    (hstep : s.overStep? (e.wait s.system.lookPause) = some t) : t.Runs settings := by
  cases hwait : e.wait s.system.lookPause with
  | send order sent refused =>
    rw [hwait] at hstep
    unfold overStep? at hstep
    dsimp only at hstep
    split at hstep
    next hopen =>
      obtain ⟨orders, hput, rfl⟩ := Option.map_eq_some_iff.mp hstep
      exact h.log (.caller (.send haway hwait hput))
    next hopen =>
      cases hstep
      exact h.log (.caller (.refused haway hwait (Bool.eq_false_iff.mpr hopen)))
  | answer heard lost =>
    rw [hwait] at hstep
    unfold overStep? at hstep
    dsimp only at hstep
    split at hstep
    next answer hreply =>
      cases hstep
      exact h.log (.caller (.hear haway hwait hreply))
    next hreply =>
      cases hstep
      exact h.log (.caller (.lose haway hwait hreply))
    next => cases hstep
  | sleep moment woken =>
    rw [hwait] at hstep
    unfold overStep? at hstep
    dsimp only at hstep
    split at hstep
    next hdue =>
      cases hstep
      exact h.log (.caller (.wake haway hwait hdue))
    next => cases hstep

theorem not_isOver_of_overStep?_eq_none {w : Wait} (h : s.overStep? w = none) :
    ¬ s.system.IsOver s.now w := by
  cases w with
  | send order sent refused =>
    unfold overStep? at h
    dsimp only at h
    split at h
    next hopen =>
      have hnone := Option.map_eq_none_iff.mp h
      rintro (⟨q, hputs⟩ | hrefuses)
      · cases hnone.symm.trans hputs
      · cases hopen.symm.trans hrefuses
    next => cases h
  | answer heard lost =>
    unfold overStep? at h
    dsimp only at h
    split at h
    next => cases h
    next => cases h
    next hreply =>
      rintro (⟨answer, hyields⟩ | hfails)
      · cases hreply.symm.trans hyields
      · cases hreply.symm.trans hfails
  | sleep moment woken =>
    unfold overStep? at h
    dsimp only at h
    split at h
    next => cases h
    next hdue => exact hdue

theorem Runs.callerStep (h : s.Runs settings) (hstep : s.callerStep? = some t) :
    t.Runs settings := by
  unfold Session.callerStep? at hstep
  split at hstep
  next e haway =>
    split at hstep
    next t' hover =>
      cases hstep
      exact h.overStep haway hover
    next hover =>
      split at hstep
      next limit after hlimit =>
        split at hstep
        next hdue =>
          cases hstep
          exact h.log (.caller (.expire haway hlimit ⟨not_isOver_of_overStep?_eq_none hover, hdue⟩))
        next => cases hstep
      next => cases hstep
  next => cases hstep
  next => cases hstep

theorem Runs.step (h : s.Runs settings) (hstep : s.step? = some t) : t.Runs settings := by
  unfold Session.step? at hstep
  split at hstep
  next t' hcaller =>
    cases hstep
    exact h.callerStep hcaller
  next => exact h.loopStep hstep

theorem Runs.wait (h : s.Runs settings) {time : Nat} (hwait : s.wait? time = some t) :
    t.Runs settings := by
  unfold Session.wait? at hwait
  dsimp only at hwait
  split at hwait
  next later hmin =>
    split at hwait
    next hlater =>
      cases hwait
      refine System.Run.wait h ⟨Nat.le_of_lt hlater, fun moment hmoment _ => ?_⟩
      refine (List.min?_eq_some_iff.mp hmin).2 moment ?_
      have hmem : moment ∈ s.moments := List.mem_append_left _ hmoment
      split
      next => exact hmem
      next => exact List.mem_cons_of_mem _ hmem
      next => exact List.mem_cons_of_mem _ hmem
    next => cases hwait
  next => cases hwait

theorem Runs.run (h : s.Runs settings) (time steps : Nat) : (s.run time steps).Runs settings := by
  induction steps generalizing s with
  | zero => exact h
  | succ steps ih =>
    unfold Session.run
    split
    next t hstep => exact ih (h.step hstep)
    next =>
      split
      next t hwait => exact ih (h.wait hwait)
      next => exact h

theorem Runs.runUntil (h : s.Runs settings) (time : Nat) : (s.runUntil time).Runs settings :=
  h.run time patience

theorem runs_start (settings : Settings) (card : Card) :
    (Session.start settings card).Runs settings :=
  Runs.runUntil (s := {
    system := .start .bench settings
    bench := { card }
    limit := settings.driver.callLimit }) .nil 0

theorem Runs.perform (h : s.Runs settings) (call : Call) : (s.perform call).2.Runs settings := by
  unfold Session.perform
  split
  next hidle hkept =>
    dsimp only
    unfold takeResult
    have hrun := (h.log (.caller (.begin hidle hkept call))).runUntil s.now
    split
    next call' result hback => exact hrun.log (.caller (.result hback))
    next => exact hrun
    next => exact hrun
  next => exact h

theorem Runs.retire (h : s.Runs settings) (millis : Nat) : (s.retire millis).2.Runs settings :=
  h.perform (.retire millis)

theorem Runs.view (h : s.Runs settings) : s.view.2.Runs settings := by
  have hperform := h.perform (.ask .view)
  unfold Session.view
  split <;> simp_all

theorem Runs.release (h : s.Runs settings) : s.release.Runs settings := by
  unfold Session.release
  split
  next hidle hkept => exact (h.log (.caller (.release hidle hkept))).runUntil _
  next => exact h

end Session

end Wimax
