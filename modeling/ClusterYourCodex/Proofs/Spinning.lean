import ClusterYourCodex.Proofs.Pumping

/-! How often the pump's loop turns. Each turn takes the monitor's result or a chunk, or finds the end of the channel.
The end of the channel is ready again and again, so that the loop turns without bound once both readers have ended and
the monitor has not. -/

namespace CYC.Process

open Machine

namespace Pump

/-- The channel is at its end, and the monitor's result is outstanding. -/
def Stalled (p : Pump) : Prop := p.closed = true ∧ p.queue = [] ∧ p.waited = false

/-- The action does not ask the channel at its end while the monitor's result is outstanding. -/
def Fed (p : Pump) (action : Action) : Prop := action = .pollRecv → ¬p.Stalled

/-- Turns that are counted and not yet paid for by a chunk or a result. -/
def pending (p : Pump) : Nat :=
  match p.loop with
  | .checking => 0
  | .uploading _ => 0
  | _ => 1

def Paid (p : Pump) : Prop := p.iterations ≤ p.received.length + p.waited.toNat + p.pending

variable {p p' : Pump}

/-- A received chunk pays for its turn. -/
theorem paid_recv (h : p.Paid) (hloop : p.loop = .pollingRecv) (hfed : ¬p.Stalled) : p.recv.Paid := by
  have hpaid : p.iterations ≤ p.received.length + p.waited.toNat + 1 := by
    rw [Paid, pending, hloop] at h
    exact h
  unfold recv
  split
  · next chunk rest hqueue =>
    have hlength : (p.received ++ [chunk]).length = p.received.length + 1 := by simp
    unfold take
    dsimp only
    have hpaid' : p.iterations ≤ (p.received ++ [chunk]).length + p.waited.toNat + 0 := by omega
    split_ifs <;> exact hpaid'
  · next hqueue =>
    split_ifs with hclosed hwaited
    · exact hpaid
    · exact absurd ⟨hclosed, hqueue, Bool.eq_false_iff.2 hwaited⟩ hfed
    · exact hpaid

theorem paid_step {action : Action} (h : p.Paid) (hfed : p.Fed action) (hstep : p.step action = some p') : p'.Paid := by
  cases step_turns hstep with
  | reader | monitor => exact h
  | leave hloop | poll hloop =>
    rw [Paid, pending, hloop] at h
    exact Nat.succ_le_succ h
  | recv hloop => exact paid_recv h hloop (hfed rfl)
  | waited hloop hfirst =>
    rw [Paid, pending, hloop, hfirst] at h
    exact h
  | pending hloop | lost hloop | uploaded _ hloop | joined hloop | torn hloop =>
    rw [Paid, Pump.pending, hloop] at h
    exact h

/-- One empty turn of a stalled loop, and where it leaves the pump. -/
theorem stalled_turn (h : p.Stalled) (hloop : p.loop = .pollingRecv) (hmonitor : p.monitor = none) :
    run step p [.pollRecv, .check, .pollWait] = some { p with iterations := p.iterations + 1 } := by
  obtain ⟨hclosed, hqueue, hwaited⟩ := h
  have hrecv : p.recv = { p with loop := .checking } := by
    unfold recv
    rw [hqueue]
    dsimp only
    rw [if_pos hclosed, hwaited]
    rfl
  simp [run, step, hloop, hrecv, hwaited, hmonitor]

theorem stalled_turns (n : Nat) : ∀ {p : Pump}, p.Stalled → p.loop = .pollingRecv → p.monitor = none →
    ∃ more, run step p more = some { p with iterations := p.iterations + n } := by
  induction n with
  | zero => exact fun _ _ _ => ⟨[], rfl⟩
  | succ n ih =>
    intro p hstalled hloop hmonitor
    obtain ⟨more, hmore⟩ := ih (p := { p with iterations := p.iterations + 1 }) hstalled hloop hmonitor
    refine ⟨[.pollRecv, .check, .pollWait] ++ more, ?_⟩
    rw [run_append, stalled_turn hstalled hloop hmonitor]
    refine hmore.trans ?_
    rw [Nat.add_assoc, Nat.add_comm 1 n]

end Pump

/-- The loop turns at most twice more often than it receives, as long as it does not ask a stalled channel; and a loop
that asks a stalled channel turns any number of times before the monitor returns, without receiving anything. -/
theorem pump_turns (budget : LogBudget) (stdout stderr : List UInt8) :
    (∀ (actions : List Action) (p : Pump), Along Pump.step Pump.Fed (.start budget stdout stderr) actions →
      run Pump.step (.start budget stdout stderr) actions = some p →
      p.iterations ≤ p.received.length + 2) ∧
    ∀ (p : Pump) (n : Nat), p.Stalled → p.loop = .pollingRecv → p.monitor = none →
      ∃ more p', run Pump.step p more = some p' ∧ p'.monitor = none ∧ p'.received = p.received ∧
        p'.iterations = p.iterations + n := by
  constructor
  · intro actions p halong hrun
    have hpaid : p.Paid := invariant_along _ (fun _ _ _ => Pump.paid_step) (Nat.zero_le _) halong hrun
    have hwaited : p.waited.toNat ≤ 1 := Bool.toNat_le _
    have hpending : p.pending ≤ 1 := by
      unfold Pump.pending
      split <;> omega
    unfold Pump.Paid at hpaid
    omega
  · intro p n hstalled hloop hmonitor
    obtain ⟨more, hmore⟩ := Pump.stalled_turns n hstalled hloop hmonitor
    exact ⟨more, _, hmore, hmonitor, rfl, rfl⟩

/-- A child that closes both pipes at once. -/
def closeBoth : List Action :=
  [.reader .stdout .eof, .reader .stderr .eof, .reader .stdout .sync, .reader .stderr .sync, .check, .pollWait]

theorem closeBoth_stalled : ∃ p, run Pump.step (.start (.new 0) [] []) closeBoth = some p ∧ p.Stalled ∧
    p.loop = .pollingRecv ∧ p.monitor = none ∧ p.received = [] := ⟨_, rfl, ⟨rfl, rfl, rfl⟩, rfl, rfl, rfl⟩

theorem pump_turns_close : ∃ p, run Pump.step (.start (.new 0) [] []) closeBoth = some p ∧
    p.iterations ≤ p.received.length + 2 ∧
    ∃ more p', run Pump.step p more = some p' ∧ p'.received = p.received ∧ p'.iterations = p.iterations + 9 := by
  obtain ⟨p, hp, hstalled, hloop, hmonitor, -⟩ := closeBoth_stalled
  obtain ⟨hbound, hspin⟩ := pump_turns (.new 0) [] []
  refine ⟨p, hp, hbound closeBoth p (by simp [closeBoth, Along, Pump.Fed]) hp, ?_⟩
  obtain ⟨more, p', hrun, -, hreceived, hturns⟩ := hspin p 9 hstalled hloop hmonitor
  exact ⟨more, p', hrun, hreceived, hturns⟩

/-- It keeps running, and the loop turns: no constant bounds the turns. -/
theorem closed_pipes_spin : ¬∃ c, ∀ actions p, run Pump.step (.start (.new 0) [] []) actions = some p → p.monitor = none →
    p.iterations ≤ p.received.length + c := by
  rintro ⟨c, hbound⟩
  obtain ⟨p, hp, hstalled, hloop, hmonitor, hreceived⟩ := closeBoth_stalled
  obtain ⟨more, hmore⟩ := Pump.stalled_turns (c + 1) hstalled hloop hmonitor
  have hrun : run Pump.step (.start (.new 0) [] []) (closeBoth ++ more) =
      some { p with iterations := p.iterations + (c + 1) } := by
    rw [run_append, hp]
    exact hmore
  have hle : p.iterations + (c + 1) ≤ p.received.length + c := hbound _ _ hrun hmonitor
  rw [hreceived, List.length_nil] at hle
  omega

end CYC.Process
