import ClusterYourCodex.Spec.Monitor

/-! The monitor reports that the process tree has ended. After an exit of the root, the report rests on a window in
which every observation found the tree empty. After a termination it rests on one observation. In both cases the
monitor returns within a fixed time. -/

namespace CYC.Monitor

open Timed

variable {status : Option ExitStatus} {result : MonitorResult} {answer : Option ExitStatus ⊕ ExitStatus}

/-- The tree was seen empty, and from then on never seen otherwise, for at least this long. -/
def Quiet (window : Nat) (m : Moment Bool) : Prop :=
  ∃ recent first earlier, m.seen = recent ++ first :: earlier ∧ (∀ o ∈ recent, o.2 = true) ∧ first.2 = true ∧
    first.1 + window ≤ m.now

section Calls

variable {host : Host} {m m' : Moment Bool}

theorem outcome_eq_ok {α : Type} {n : Nat} {a b : α} : host.outcome n a = .ok b ↔ host.failure n = none ∧ b = a := by
  unfold Host.outcome
  cases host.failure n with
  | none => simp [eq_comm]
  | some e => simp

theorem gives_act (h : host.act.Gives m () m') : m' = m.after (host.pace m.calls) := by
  have hm' := (gives_ask.1 h).2
  rwa [Nat.zero_add] at hm'

theorem gives_tryWait (h : host.tryWait.Gives m status m') :
    status = host.status m'.now ∧ m' = m.after (host.pace m.calls) := by
  obtain ⟨hstatus, hm'⟩ := gives_ask.1 h
  rw [Nat.zero_add] at hm'
  subst hm'
  rw [Nat.zero_add] at hstatus
  exact ⟨(outcome_eq_ok.1 hstatus).2, rfl⟩

theorem gives_load {signal : UInt8} (h : host.load.Gives m signal m') :
    signal = host.signal m'.now ∧ m' = m.after (host.pace m.calls) := by
  obtain ⟨hsignal, hm'⟩ := gives_ask.1 h
  rw [Nat.zero_add] at hm'
  subst hm'
  rw [Nat.zero_add] at hsignal
  exact ⟨(Except.ok.inj hsignal).symm, rfl⟩

/-- An answer of `is_empty` is the newest observation. -/
theorem gives_isEmpty {b : Bool} (h : host.isEmpty.Gives m b m') : m.now ≤ m'.now ∧ m'.seen = (m'.now, b) :: m.seen := by
  obtain ⟨-, rfl⟩ := gives_watch.1 h
  exact ⟨Nat.le_add_right _ _, rfl⟩

end Calls

/-! ### The window after an exit -/

section Window

variable {host : Host} {m m' : Moment Bool}

theorem occupied_gives_inl (h : (occupied host ()).Gives m (.inl ()) m') : host.isEmpty.Gives m true m' := by
  obtain ⟨b, m₁, hempty, hrest⟩ := gives_bind.1 h
  cases b with
  | true =>
    obtain ⟨-, rfl⟩ := gives_pure.1 hrest
    exact hempty
  | false =>
    obtain ⟨hfalse, -⟩ := gives_pure.1 hrest
    cases hfalse

/-- The inner loop ends with its deadline only if no observation found a process. -/
theorem quiet_window {deadline : Nat} {first : Nat × Bool} {earlier : List (Nat × Bool)} (hseen : m.seen = first :: earlier)
    (hfirst : first.2 = true) (hdeadline : first.1 + treeEmptyQuiescence ≤ deadline)
    (h : (pollUntil host.pace (occupied host) deadline (millis 10) ()).Gives m (.inl ()) m') :
    Quiet treeEmptyQuiescence m' := by
  let inv : Unit → Moment Bool → Prop := fun _ m =>
    ∃ recent, m.seen = recent ++ first :: earlier ∧ ∀ o ∈ recent, o.2 = true
  have hgrow : ∀ {m m' : Moment Bool}, inv () m → (occupied host ()).Gives m (.inl ()) m' → inv () m' := by
    rintro m m' ⟨recent, hrecent, hall⟩ hcheck
    obtain ⟨-, hnew⟩ := gives_isEmpty (occupied_gives_inl hcheck)
    refine ⟨(m'.now, true) :: recent, by rw [hnew, hrecent]; rfl, ?_⟩
    rintro o (_ | ⟨_, ho⟩)
    · rfl
    · exact hall o ho
  have hround : ∀ s m s' m', inv s m → Round host.pace (occupied host) deadline (millis 10) s m s' m' → inv s' m' := by
    rintro _ m _ m' hm ⟨m₁, hcheck, -, rfl⟩
    have hm₁ : inv () m₁ := hgrow hm hcheck
    exact hm₁
  obtain ⟨_, m₀, hm₀, ⟨a, hno, -⟩ | ⟨_, m₁, -, hcheck, rfl, hlate⟩⟩ :=
    pollUntil_gives inv (by decide) hround ⟨[], hseen, by simp⟩ h
  · cases hno
  · obtain ⟨recent, hrecent, hall⟩ := hgrow hm₀ hcheck
    exact ⟨recent, first, earlier, hrecent, hall, hfirst, hdeadline.trans hlate⟩

theorem emptyThroughout_gives_inr (h : (emptyThroughout host ()).Gives m (.inr ()) m') : Quiet treeEmptyQuiescence m' := by
  obtain ⟨b, m₁, hempty, h⟩ := gives_bind.1 h
  cases b with
  | false =>
    obtain ⟨hfalse, -⟩ := gives_pure.1 h
    cases hfalse
  | true =>
    obtain ⟨now, m₂, hclock, h⟩ := gives_bind.1 h
    obtain ⟨hnow, hm₂⟩ := gives_clock.1 hclock
    have hseen : m₂.seen = (m₁.now, true) :: m.seen := by
      rw [hm₂]
      exact (gives_isEmpty hempty).2
    have hlater : m₁.now ≤ now := by
      rw [hnow, hm₂]
      exact Nat.le_add_right _ _
    obtain ⟨answer, m₃, hloop, h⟩ := gives_bind.1 h
    cases answer with
    | inr _ =>
      obtain ⟨hfalse, -⟩ := gives_pure.1 h
      cases hfalse
    | inl _ =>
      obtain ⟨-, rfl⟩ := gives_pure.1 h
      exact quiet_window hseen rfl (Nat.add_le_add_right hlater _) hloop

theorem waitForTreeEmpty_gives {timeout : Nat} (h : (waitForTreeEmpty host timeout).Gives m true m') :
    Quiet treeEmptyQuiescence m' := by
  obtain ⟨now, m₁, -, h⟩ := gives_bind.1 h
  obtain ⟨answer, m₂, hloop, h⟩ := gives_bind.1 h
  cases answer with
  | inl _ =>
    obtain ⟨hfalse, -⟩ := gives_pure.1 h
    cases hfalse
  | inr _ =>
    obtain ⟨-, rfl⟩ := gives_pure.1 h
    obtain ⟨_, m₀, -, ⟨_, -, hcheck⟩ | ⟨_, _, hno, -⟩⟩ :=
      pollUntil_gives (fun _ _ => True) (by decide) (fun _ _ _ _ _ _ => trivial) trivial hloop
    · exact emptyThroughout_gives_inr hcheck
    · cases hno

theorem cleanupAfterRootExit_gives {forced : Bool} (h : (cleanupAfterRootExit host).Gives m forced m') :
    Quiet treeEmptyQuiescence m' := by
  obtain ⟨b, m₁, hwait, h⟩ := gives_bind.1 h
  cases b with
  | true =>
    obtain ⟨-, rfl⟩ := gives_pure.1 h
    exact waitForTreeEmpty_gives hwait
  | false =>
    obtain ⟨_, m₂, -, h⟩ := gives_bind.1 h
    obtain ⟨b, m₃, hwait, h⟩ := gives_bind.1 h
    cases b with
    | true =>
      obtain ⟨-, rfl⟩ := gives_pure.1 h
      exact waitForTreeEmpty_gives hwait
    | false =>
      obtain ⟨_, m₄, -, h⟩ := gives_bind.1 h
      obtain ⟨b, m₅, hwait, h⟩ := gives_bind.1 h
      cases b with
      | true =>
        obtain ⟨-, rfl⟩ := gives_pure.1 h
        exact waitForTreeEmpty_gives hwait
      | false => exact absurd h not_gives_fail

theorem reapTree_gives {status : ExitStatus} (h : (reapTree host status).Gives m result m') :
    result.processTreeTerminated = true ∧ Quiet treeEmptyQuiescence m' := by
  obtain ⟨forced, m₁, hcleanup, h⟩ := gives_bind.1 h
  obtain ⟨rfl, rfl⟩ := gives_pure.1 h
  exact ⟨rfl, cleanupAfterRootExit_gives hcleanup⟩

end Window

/-! ### The observation after a termination -/

section Termination

variable {host : Host} {m m' : Moment Bool}

/-- The tree was seen empty once, at this very moment, and never before. -/
def SeenOnce (m : Moment Bool) : Prop := ∃ earlier, m.seen = (m.now, true) :: earlier ∧ ∀ o ∈ earlier, o.2 = false

theorem SeenOnce.not_quiet (h : SeenOnce m) : ¬Quiet treeEmptyQuiescence m := by
  rintro ⟨recent, first, rest, hseen, -, hfirst, hwindow⟩
  obtain ⟨earlier, hnow, hall⟩ := h
  rw [hnow] at hseen
  cases recent with
  | nil =>
    rw [List.nil_append, List.cons.injEq] at hseen
    rw [← hseen.1] at hwindow
    have hpositive : 0 < treeEmptyQuiescence := by decide
    dsimp only at hwindow
    omega
  | cons o recent =>
    rw [List.cons_append, List.cons.injEq] at hseen
    have hfalse := hall first (hseen.2 ▸ List.mem_append_right _ List.mem_cons_self)
    rw [hfirst] at hfalse
    cases hfalse

/-- Every observation found a process. -/
def Busy (m : Moment Bool) : Prop := ∀ o ∈ m.seen, o.2 = false

theorem Busy.after (h : Busy m) (elapsed : Nat) : Busy (m.after elapsed) := h

theorem isEmpty_busy (hm : Busy m) (h : host.isEmpty.Gives m false m') : Busy m' := by
  rw [Busy, (gives_isEmpty h).2]
  rintro o (_ | ⟨_, ho⟩)
  · rfl
  · exact hm o ho

theorem isEmpty_once (hm : Busy m) (h : host.isEmpty.Gives m true m') : SeenOnce m' := ⟨m.seen, (gives_isEmpty h).2, hm⟩

/-- The two ways to end a check once the status is known. -/
theorem seen_gives {status : ExitStatus} (hm : Busy m)
    (h : (do if ← host.isEmpty then pure (.inr status) else pure (.inl (some status)) :
      Watching (Option ExitStatus ⊕ ExitStatus)).Gives m answer m') :
    (∃ s, answer = .inl s) ∧ Busy m' ∨ (∃ s, answer = .inr s) ∧ SeenOnce m' := by
  obtain ⟨b, m₁, hempty, h⟩ := gives_bind.1 h
  cases b with
  | true =>
    obtain ⟨rfl, rfl⟩ := gives_pure.1 h
    exact .inr ⟨⟨_, rfl⟩, isEmpty_once hm hempty⟩
  | false =>
    obtain ⟨rfl, rfl⟩ := gives_pure.1 h
    exact .inl ⟨⟨_, rfl⟩, isEmpty_busy hm hempty⟩

theorem ended_gives (hm : Busy m) (h : (ended host status).Gives m answer m') :
    (∃ s, answer = .inl s) ∧ Busy m' ∨ (∃ s, answer = .inr s) ∧ SeenOnce m' := by
  cases status with
  | some status => exact seen_gives hm h
  | none =>
    obtain ⟨status, m₁, hwait, h⟩ := gives_bind.1 h
    obtain ⟨-, rfl⟩ := gives_tryWait hwait
    cases status with
    | some status => exact seen_gives (hm.after _) h
    | none =>
      obtain ⟨rfl, rfl⟩ := gives_pure.1 h
      exact .inl ⟨⟨_, rfl⟩, hm⟩

theorem pollEnded_gives {deadline : Nat} (hm : Busy m)
    (h : (pollUntil host.pace (ended host) deadline (millis 50) status).Gives m answer m') :
    (∃ s, answer = .inl s) ∧ Busy m' ∨ (∃ s, answer = .inr s) ∧ SeenOnce m' := by
  have hround : ∀ s m s' m', Busy m → Round host.pace (ended host) deadline (millis 50) s m s' m' → Busy m' := by
    rintro s m s' m' hm ⟨m₁, hcheck, -, rfl⟩
    rcases ended_gives hm hcheck with ⟨-, hbusy⟩ | ⟨⟨_, hno⟩, -⟩
    · exact hbusy
    · cases hno
  obtain ⟨s₀, m₀, hm₀, ⟨a, rfl, hcheck⟩ | ⟨s₁, m₁, rfl, hcheck, rfl, -⟩⟩ :=
    pollUntil_gives (fun _ m => Busy m) (by decide) hround hm h
  · exact ended_gives hm₀ hcheck
  · rcases ended_gives hm₀ hcheck with ⟨-, hbusy⟩ | ⟨⟨_, hno⟩, -⟩
    · exact .inl ⟨⟨_, rfl⟩, hbusy⟩
    · cases hno

theorem waitAfterForcedKill_gives {result : ExitStatus × Bool} (hm : Busy m)
    (h : (waitAfterForcedKill host status).Gives m result m') : SeenOnce m' := by
  obtain ⟨_, m₁, hact, h⟩ := gives_bind.1 h
  cases gives_act hact
  obtain ⟨now, m₂, hclock, h⟩ := gives_bind.1 h
  obtain ⟨rfl, rfl⟩ := gives_clock.1 hclock
  obtain ⟨answer, m₃, hloop, h⟩ := gives_bind.1 h
  rcases pollEnded_gives ((hm.after _).after _) hloop with ⟨⟨s, rfl⟩, -⟩ | ⟨⟨s, rfl⟩, honce⟩
  · exact absurd h not_gives_fail
  · obtain ⟨-, rfl⟩ := gives_pure.1 h
    exact honce

theorem waitAfterTermination_gives {result : ExitStatus × Bool} (hm : Busy m)
    (h : (waitAfterTermination host).Gives m result m') : SeenOnce m' := by
  obtain ⟨now, m₁, hclock, h⟩ := gives_bind.1 h
  obtain ⟨rfl, rfl⟩ := gives_clock.1 hclock
  obtain ⟨answer, m₂, hloop, h⟩ := gives_bind.1 h
  rcases pollEnded_gives (hm.after _) hloop with ⟨⟨s, rfl⟩, hbusy⟩ | ⟨⟨s, rfl⟩, honce⟩
  · exact waitAfterForcedKill_gives hbusy h
  · obtain ⟨-, rfl⟩ := gives_pure.1 h
    exact honce

theorem terminateTree_gives {reason : ProcessTerminationReason} (hm : Busy m)
    (h : (terminateTree host reason).Gives m result m') : result.processTreeTerminated = true ∧ SeenOnce m' := by
  obtain ⟨_, m₁, hact, h⟩ := gives_bind.1 h
  cases gives_act hact
  obtain ⟨answer, m₂, hwait, h⟩ := gives_bind.1 h
  obtain ⟨rfl, rfl⟩ := gives_pure.1 h
  exact ⟨rfl, waitAfterTermination_gives (hm.after _) hwait⟩

end Termination

/-! ### Which of the two it is -/

namespace Host

variable (host : Host) (start timeout : Nat)

/-- How long the first calls take. -/
def elapsed : Nat → Nat
  | 0 => 0
  | n + 1 => elapsed n + host.pace n

/-- The instant after `n` calls and `k` polls. A poll is five calls long, and comes after the first reading of the
clock. -/
def instant (k n : Nat) : Nat := start + host.elapsed n + k * millis 20

/-- The poll finds the root exited. -/
def RootExited (k : Nat) : Prop := host.status (host.instant start k (5 * k + 3)) ≠ none

/-- The poll finds no reason for a termination. -/
def Undisturbed (k : Nat) : Prop :=
  interruption (host.signal (host.instant start k (5 * k + 4))) = none ∧
    host.instant start k (5 * k + 5) < host.instant start 0 1 + timeout

/-- The root is found exited before a poll finds a signal or the timeout. -/
def RootFirst : Prop := ∃ k, host.RootExited start k ∧ ∀ j < k, host.Undisturbed start timeout j

end Host

section Polls

variable {host : Host} {start timeout : Nat} {m m' : Moment Bool}

theorem poll_gives {answer : Unit ⊕ (ExitStatus ⊕ ProcessTerminationReason)} (h : (poll host ()).Gives m answer m') :
    m'.seen = m.seen ∧
      ((∃ status, answer = .inr (.inl status)) ∧ host.status (m.now + host.pace m.calls + host.pace (m.calls + 1)) ≠ none ∨
        host.status (m.now + host.pace m.calls + host.pace (m.calls + 1)) = none ∧
          m' = ((m.after (host.pace m.calls)).after (host.pace (m.calls + 1))).after (host.pace (m.calls + 2)) ∧
          ((∃ reason, answer = .inr (.inr reason)) ∧ interruption (host.signal m'.now) ≠ none ∨
            answer = .inl () ∧ interruption (host.signal m'.now) = none)) := by
  obtain ⟨_, m₁, hact, h⟩ := gives_bind.1 h
  cases gives_act hact
  obtain ⟨status, m₂, hwait, h⟩ := gives_bind.1 h
  obtain ⟨hstatus, rfl⟩ := gives_tryWait hwait
  cases status with
  | some status =>
    obtain ⟨rfl, rfl⟩ := gives_pure.1 h
    refine ⟨rfl, .inl ⟨⟨_, rfl⟩, ?_⟩⟩
    intro hnone
    cases hstatus.trans hnone
  | none =>
    obtain ⟨signal, m₃, hload, h⟩ := gives_bind.1 h
    obtain ⟨hsignal, rfl⟩ := gives_load hload
    cases hreason : interruption signal with
    | some reason =>
      rw [hreason] at h
      obtain ⟨rfl, rfl⟩ := gives_pure.1 h
      refine ⟨rfl, .inr ⟨hstatus.symm, rfl, .inl ⟨⟨_, rfl⟩, ?_⟩⟩⟩
      rw [← hsignal, hreason]
      nofun
    | none =>
      rw [hreason] at h
      obtain ⟨rfl, rfl⟩ := gives_pure.1 h
      exact ⟨rfl, .inr ⟨hstatus.symm, rfl, .inr ⟨rfl, hsignal ▸ hreason⟩⟩⟩

/-- The state of the loop at the beginning of its `k`-th poll. -/
def AtPoll (host : Host) (start timeout : Nat) (m : Moment Bool) : Prop :=
  ∃ k, m = ⟨5 * k + 1, host.instant start k (5 * k + 1), []⟩ ∧
    ∀ j < k, ¬host.RootExited start j ∧ host.Undisturbed start timeout j

theorem instant_succ (k n : Nat) : host.instant start k (n + 1) = host.instant start k n + host.pace n := by
  unfold Host.instant
  rw [Host.elapsed]
  omega

/-- The five calls of a poll, the last of them the pause. -/
theorem instant_next (k : Nat) : host.instant start (k + 1) (5 * (k + 1) + 1) = host.instant start k (5 * k + 1) +
    host.pace (5 * k + 1) + host.pace (5 * k + 2) + host.pace (5 * k + 3) + host.pace (5 * k + 4) +
      (millis 20 + host.pace (5 * k + 5)) := by
  have hpause : host.instant start (k + 1) (5 * k + 6) = host.instant start k (5 * k + 6) + millis 20 := by
    unfold Host.instant
    generalize millis 20 = pause
    rw [Nat.add_one_mul k pause, ← Nat.add_assoc]
  rw [show 5 * (k + 1) + 1 = 5 * k + 6 by omega, hpause, instant_succ k (5 * k + 5), instant_succ k (5 * k + 4),
    instant_succ k (5 * k + 3), instant_succ k (5 * k + 2), instant_succ k (5 * k + 1)]
  omega

theorem atPoll_round (hm : AtPoll host start timeout m)
    (hround : Round host.pace (poll host) (host.instant start 0 1 + timeout) (millis 20) () m () m') :
    AtPoll host start timeout m' := by
  obtain ⟨k, rfl, hbefore⟩ := hm
  obtain ⟨m₁, hpoll, hearly, rfl⟩ := hround
  obtain ⟨-, ⟨⟨_, hno⟩, -⟩ | ⟨hroot, rfl, ⟨⟨_, hno⟩, -⟩ | ⟨-, hsignal⟩⟩⟩ := poll_gives hpoll
  · cases hno
  · cases hno
  · refine ⟨k + 1, ?_, ?_⟩
    · rw [instant_next]
      rfl
    · intro j hj
      rcases Nat.lt_succ_iff_lt_or_eq.1 hj with hj | rfl
      · exact hbefore j hj
      · refine ⟨?_, ?_, ?_⟩
        · intro hexited
          rw [Host.RootExited, instant_succ, instant_succ] at hexited
          exact hexited hroot
        · rw [instant_succ, instant_succ, instant_succ]
          exact hsignal
        · rw [instant_succ, instant_succ, instant_succ, instant_succ]
          exact hearly

/-- The monitor's report rests on a quiet window exactly if the root was found exited first. -/
theorem monitorChild_gives (h : (monitorChild host timeout).Gives ⟨0, start, []⟩ result m') :
    result.processTreeTerminated = true ∧ (Quiet treeEmptyQuiescence m' ↔ host.RootFirst start timeout) := by
  obtain ⟨now, m₁, hclock, h⟩ := gives_bind.1 h
  obtain ⟨rfl, rfl⟩ := gives_clock.1 hclock
  obtain ⟨answer, m₂, hloop, h⟩ := gives_bind.1 h
  have hstart : host.instant start 0 1 = start + host.pace 0 := by
    rw [instant_succ, Host.instant, Nat.zero_mul]
    rfl
  have hfirst : AtPoll host start timeout ((⟨0, start, []⟩ : Moment Bool).after (host.pace 0)) :=
    ⟨0, by rw [hstart]; rfl, by simp⟩
  have hround : ∀ s m s' m', AtPoll host start timeout m →
      Round host.pace (poll host) (start + host.pace 0 + timeout) (millis 20) s m s' m' → AtPoll host start timeout m' := by
    intro _ m _ m' hm hround
    rw [← hstart] at hround
    exact atPoll_round hm hround
  -- what an interrupted poll leaves is a termination, and the root was not found exited
  have hinterrupted : ∀ k {reason m}, m.seen = [] → (terminateTree host reason).Gives m result m' →
      (∀ j < k, ¬host.RootExited start j) → ¬host.RootExited start k → ¬host.Undisturbed start timeout k →
      result.processTreeTerminated = true ∧ (Quiet treeEmptyQuiescence m' ↔ host.RootFirst start timeout) := by
    intro k reason m hseen h hbefore hroot hdisturbed
    have hbusy : Busy m := by simp [Busy, hseen]
    obtain ⟨hreport, honce⟩ := terminateTree_gives hbusy h
    refine ⟨hreport, iff_of_false honce.not_quiet ?_⟩
    rintro ⟨k', hexited, hquiet⟩
    rcases lt_trichotomy k' k with hlt | rfl | hgt
    · exact hbefore k' hlt hexited
    · exact hroot hexited
    · exact hdisturbed (hquiet k hgt)
  obtain ⟨_, m₀, ⟨k, rfl, hbefore⟩, ⟨found, rfl, hpoll⟩ | ⟨_, m₃, rfl, hpoll, rfl, hlate⟩⟩ :=
    pollUntil_gives (fun _ m => AtPoll host start timeout m) (by decide) hround hfirst hloop
  · obtain ⟨hseen, ⟨⟨status, hfound⟩, hroot⟩ | ⟨hroot, rfl, ⟨⟨reason, hfound⟩, hsignal⟩ | ⟨hno, -⟩⟩⟩ := poll_gives hpoll
    · cases hfound
      obtain ⟨hreport, hquiet⟩ := reapTree_gives h
      refine ⟨hreport, iff_of_true hquiet ⟨k, ?_, fun j hj => (hbefore j hj).2⟩⟩
      rw [Host.RootExited, instant_succ, instant_succ]
      exact hroot
    · cases hfound
      refine hinterrupted k hseen h (fun j hj => (hbefore j hj).1) ?_ ?_
      · rw [Host.RootExited, instant_succ, instant_succ, not_not]
        exact hroot
      · rw [Host.Undisturbed, instant_succ, instant_succ, instant_succ]
        exact fun hnone => hsignal hnone.1
    · cases hno
  · obtain ⟨hseen, ⟨⟨_, hno⟩, -⟩ | ⟨hroot, rfl, ⟨⟨_, hno⟩, -⟩ | -⟩⟩ := poll_gives hpoll
    · cases hno
    · cases hno
    · have hstopped : (terminateTree host .timedOut).Gives _ result m' := h
      refine hinterrupted k ?_ hstopped (fun j hj => (hbefore j hj).1) ?_ ?_
      · exact hseen
      · rw [Host.RootExited, instant_succ, instant_succ, not_not]
        exact hroot
      · rw [Host.Undisturbed, hstart, instant_succ k (5 * k + 4), instant_succ k (5 * k + 3), instant_succ k (5 * k + 2),
          instant_succ k (5 * k + 1)]
        exact fun hnone => absurd hlate (not_le.2 hnone.2)

end Polls

/-! ### How long the monitor takes -/

section Bound

variable {host : Host} {δ : Nat} (hpace : ∀ n, host.pace n ≤ δ)

include hpace

theorem within_act : host.act.Within δ := (within_ask hpace 0 _).mono (Nat.zero_add δ).le

theorem within_tryWait : host.tryWait.Within δ := (within_ask hpace 0 _).mono (Nat.zero_add δ).le

theorem within_load : host.load.Within δ := (within_ask hpace 0 _).mono (Nat.zero_add δ).le

theorem within_isEmpty : host.isEmpty.Within δ := within_watch hpace _

theorem within_occupied (s : Unit) : (occupied host s).Within δ := by
  refine ((within_isEmpty hpace).bind (d := 0) fun b => ?_).mono (by omega)
  cases b with
  | true | false => exact within_pure _ _

theorem within_emptyThroughout (s : Unit) : (emptyThroughout host s).Within (millis 110 + 5 * δ) := by
  have hmillis : treeEmptyQuiescence + millis 10 = millis 110 := by decide
  refine ((within_isEmpty hpace).bind (d := millis 110 + 4 * δ) fun b => ?_).mono (by omega)
  cases b with
  | false => exact within_pure _ _
  | true =>
    refine (within_pollUntil (d := 0) treeEmptyQuiescence (by decide : 0 < millis 10) hpace (within_occupied hpace)
      (fun answer => ?_) ()).mono (by omega)
    cases answer with
    | inl | inr => exact within_pure _ _

theorem within_waitForTreeEmpty (timeout : Nat) : (waitForTreeEmpty host timeout).Within (timeout + millis 160 + 8 * δ) := by
  have hmillis : millis 50 + millis 110 = millis 160 := by decide
  refine (within_pollUntil (d := 0) timeout (by decide : 0 < millis 50) hpace (within_emptyThroughout hpace)
    (fun answer => ?_) ()).mono (by omega)
  cases answer with
  | inl | inr => exact within_pure _ _

theorem within_cleanupAfterRootExit : (cleanupAfterRootExit host).Within (millis 6580 + 26 * δ) := by
  have hmillis : treeEmptyQuiescence + millis 160 + 2 * (millis 3000 + millis 160) = millis 6580 := by decide
  refine ((within_waitForTreeEmpty hpace treeEmptyQuiescence).bind (d := 2 * (millis 3000 + millis 160) + 18 * δ)
    fun b => ?_).mono (by omega)
  cases b with
  | true => exact within_pure _ _
  | false =>
    refine ((within_act hpace).bind (d := 2 * (millis 3000 + millis 160) + 17 * δ) fun _ => ?_).mono (by omega)
    refine ((within_waitForTreeEmpty hpace (millis 3000)).bind (d := millis 3000 + millis 160 + 9 * δ)
      fun b => ?_).mono (by omega)
    cases b with
    | true => exact within_pure _ _
    | false =>
      refine ((within_act hpace).bind (d := millis 3000 + millis 160 + 8 * δ) fun _ => ?_).mono (by omega)
      refine ((within_waitForTreeEmpty hpace (millis 3000)).bind (d := 0) fun b => ?_).mono (by omega)
      cases b with
      | true => exact within_pure _ _
      | false => exact within_fail _ _

theorem within_seen (status : ExitStatus) :
    (do if ← host.isEmpty then pure (.inr status) else pure (.inl (some status)) :
      Watching (Option ExitStatus ⊕ ExitStatus)).Within δ := by
  refine ((within_isEmpty hpace).bind (d := 0) fun b => ?_).mono (by omega)
  cases b with
  | true | false => exact within_pure _ _

theorem within_ended (status : Option ExitStatus) : (ended host status).Within (2 * δ) := by
  cases status with
  | some status => exact (within_seen hpace status).mono (by omega)
  | none =>
    refine ((within_tryWait hpace).bind (d := δ) fun status => ?_).mono (by omega)
    cases status with
    | none => exact within_pure _ _
    | some status => exact within_seen hpace status

theorem within_waitAfterForcedKill (status : Option ExitStatus) :
    (waitAfterForcedKill host status).Within (millis 3050 + 6 * δ) := by
  have hmillis : millis 3000 + millis 50 = millis 3050 := by decide
  refine ((within_act hpace).bind (d := millis 3050 + 5 * δ) fun _ => ?_).mono (by omega)
  refine (within_pollUntil (d := 0) (millis 3000) (by decide : 0 < millis 50) hpace (within_ended hpace)
    (fun answer => ?_) status).mono (by omega)
  cases answer with
  | inl _ => exact within_fail _ _
  | inr _ => exact within_pure _ _

theorem within_waitAfterTermination : (waitAfterTermination host).Within (millis 6100 + 11 * δ) := by
  have hmillis : millis 3000 + millis 50 + millis 3050 = millis 6100 := by decide
  refine (within_pollUntil (d := millis 3050 + 6 * δ) (millis 3000) (by decide : 0 < millis 50) hpace (within_ended hpace)
    (fun answer => ?_) none).mono (by omega)
  cases answer with
  | inl status => exact within_waitAfterForcedKill hpace status
  | inr _ => exact within_pure _ _

/-- Either way to end the tree is this fast. -/
theorem within_terminateTree (reason : ProcessTerminationReason) :
    (terminateTree host reason).Within (millis 6580 + 26 * δ) := by
  have hmillis : millis 6100 ≤ millis 6580 := by decide
  refine ((within_act hpace).bind (d := millis 6580 + 25 * δ) fun _ => ?_).mono (by omega)
  exact ((within_waitAfterTermination hpace).bind (d := 0) fun _ => within_pure _ _).mono (by omega)

theorem within_reapTree (status : ExitStatus) : (reapTree host status).Within (millis 6580 + 26 * δ) :=
  ((within_cleanupAfterRootExit hpace).bind (d := 0) fun _ => within_pure _ _).mono (by omega)

theorem within_poll (s : Unit) : (poll host s).Within (3 * δ) := by
  refine ((within_act hpace).bind (d := 2 * δ) fun _ => ?_).mono (by omega)
  refine ((within_tryWait hpace).bind (d := δ) fun status => ?_).mono (by omega)
  cases status with
  | some status => exact within_pure _ _
  | none =>
    refine ((within_load hpace).bind (d := 0) fun signal => ?_).mono (by omega)
    cases interruption signal with
    | some | none => exact within_pure _ _

end Bound

/-- By this instant the root has exited, the signal is set, or the timeout has passed. -/
def Host.Due (host : Host) (start timeout t : Nat) : Prop :=
  host.status t ≠ none ∨ (∀ now, t ≤ now → interruption (host.signal now) ≠ none) ∨ start + timeout ≤ t

theorem status_mono {host : Host} {t now : Nat} (h : host.status t ≠ none) (hle : t ≤ now) : host.status now ≠ none := by
  unfold Host.status at h ⊢
  generalize host.exit = exit at h ⊢
  rcases exit with _ | ⟨at_, status⟩
  · exact h
  · dsimp only at h ⊢
    split_ifs at h with hat
    · rw [if_pos (hat.trans hle)]
      nofun
    · exact absurd rfl h

theorem now_monitorChild_le {host : Host} {δ : Nat} (hpace : ∀ n, host.pace n ≤ δ) {start timeout t : Nat}
    (hdue : host.Due start timeout t) :
    ((monitorChild host timeout).run ⟨0, start, []⟩).2.now ≤ max start t + (millis 6600 + 35 * δ) := by
  have hmillis : millis 6580 + millis 20 = millis 6600 := by decide
  have hclock := (within_clock hpace : (clock host.pace : Watching Nat).Within δ) ⟨0, start, []⟩
  dsimp only at hclock
  refine now_bind_le (by omega) fun now m₁ h₁ => ?_
  have hm₁ := h₁.now_le hclock
  obtain ⟨rfl, -⟩ := gives_clock.1 h₁
  have hloop : ((pollUntil host.pace (poll host) (m₁.now + timeout) (millis 20) ()).run m₁).2.now ≤
      max start t + (millis 20 + 9 * δ) := by
    by_cases htimeout : start + timeout ≤ t
    · have := now_pollUntil_le (m₁.now + timeout) (by decide : 0 < millis 20) hpace (within_poll hpace) () m₁
      omega
    · have hanswered : ∀ s s' (m m' : Moment Bool), t ≤ m.now → ¬(poll host s).Gives m (.inl s') m' := by
        intro _ _ m m' hm h
        obtain ⟨-, ⟨⟨_, hno⟩, -⟩ | ⟨hroot, rfl, ⟨⟨_, hno⟩, -⟩ | ⟨-, hsignal⟩⟩⟩ := poll_gives h
        · cases hno
        · cases hno
        · rcases hdue with hexit | hset | hlate
          · exact status_mono hexit (hm.trans (by omega)) hroot
          · exact hset _ (hm.trans h.onward.now) hsignal
          · exact htimeout hlate
      have := now_pollUntil_le_of_due (m₁.now + timeout) (by decide : 0 < millis 20) hpace (within_poll hpace)
        hanswered () m₁
      omega
  refine now_bind_le (by omega) fun answer m₂ h₂ => ?_
  have hm₂ := h₂.now_le hloop
  rcases answer with _ | status | reason
  · have := within_terminateTree hpace .timedOut m₂
    show ((terminateTree host .timedOut).run m₂).2.now ≤ _
    omega
  · have := within_reapTree hpace status m₂
    show ((reapTree host status).run m₂).2.now ≤ _
    omega
  · have := within_terminateTree hpace reason m₂
    show ((terminateTree host reason).run m₂).2.now ≤ _
    omega

/-- What the monitor reports rests on a quiet window exactly if the root was found exited first, and the monitor returns
soon after the exit, the signal or the timeout. -/
theorem monitor_report (host : Host) (start timeout : Nat) :
    (∀ result m', (monitorChild host timeout).Gives ⟨0, start, []⟩ result m' → result.processTreeTerminated = true →
      (Quiet treeEmptyQuiescence m' ↔ host.RootFirst start timeout)) ∧
    ∀ δ, (∀ n, host.pace n ≤ δ) → ∀ t, host.Due start timeout t →
      ((monitorChild host timeout).run ⟨0, start, []⟩).2.now ≤ max start t + (millis 6600 + 35 * δ) :=
  ⟨fun _ _ h _ => (monitorChild_gives h).2, fun _ hpace _ hdue => now_monitorChild_le hpace hdue⟩

/-- A host on which each call takes this long, the tree is always empty and the root exits at this instant. -/
def steadyHost (pace exit : Nat) (signal : UInt8) : Host where
  pace _ := pace
  failure _ := none
  empty _ := true
  exit := some (exit, ⟨some 0, none⟩)
  signal _ := signal

theorem monitor_report_steady : ∃ result m',
    (monitorChild (steadyHost (millis 60) 0 cancelNone) 0).Gives ⟨0, 0, []⟩ result m' ∧
      Quiet treeEmptyQuiescence m' ∧ m'.now ≤ millis 6600 + 35 * millis 60 := by
  refine ⟨_, _, rfl, ?_, ?_⟩
  · refine ((monitor_report (steadyHost (millis 60) 0 cancelNone) 0 0).1 _ _ rfl rfl).2 ?_
    exact ⟨0, by unfold Host.RootExited; decide, by simp⟩
  · have hbound := (monitor_report (steadyHost (millis 60) 0 cancelNone) 0 0).2 (millis 60) (fun _ => le_rfl) 0
      (.inr (.inr le_rfl))
    rw [max_self, Nat.zero_add] at hbound
    exact hbound

/-- A cancelled root that exits after the next call: the one observation of an empty tree is the report. -/
theorem cancelled_not_quiet : ∃ result m',
    (monitorChild (steadyHost 1 6 cancelRequested) (millis 1000)).Gives ⟨0, 0, []⟩ result m' ∧
      result.processTreeTerminated = true ∧ ¬Quiet treeEmptyQuiescence m' := by
  refine ⟨⟨⟨some 0, none⟩, .cancelRequested, true, false⟩, ⟨8, 8, [(8, true)]⟩, rfl, rfl, ?_⟩
  exact SeenOnce.not_quiet ⟨[], rfl, by simp⟩

end CYC.Monitor
