import Mathlib.Data.List.Infix
import ClusterYourCodex.Spec.Pump

/-! What the pump keeps of a child's output. The bytes that the readers retain, the log files, the hashed bytes and the
chunks on their way to the sink are different views of one sequence, which is a prefix of the output; the rest of the
output is dropped only once the budget is used up. -/

namespace CYC.Process

/-! ### What is kept under a budget -/

/-- What is retained of what was decided on: a part is missing only if the budget is used up. -/
structure Kept (budget : LogBudget) (retained decided : List UInt8) : Prop where
  isPrefix : retained <+: decided
  whole : retained = decided ∨ budget.remaining = 0

theorem kept_nil (budget : LogBudget) : Kept budget [] [] := ⟨List.prefix_rfl, .inl rfl⟩

theorem Kept.mono {b b' : LogBudget} {retained decided : List UInt8} (h : Kept b retained decided)
    (hzero : b.remaining = 0 → b'.remaining = 0) : Kept b' retained decided := ⟨h.isPrefix, h.whole.imp_right hzero⟩

/-- Both parts of a prefix and a rest are whole if the two together are. -/
theorem append_take_eq_iff {retained decided buffer : List UInt8} {n : Nat} (hpre : retained <+: decided)
    (hn : n ≤ buffer.length) : retained ++ buffer.take n = decided ++ buffer ↔ retained = decided ∧ n = buffer.length := by
  constructor
  · intro h
    have hlength := congrArg List.length h
    rw [List.length_append, List.length_append, List.length_take, min_eq_left hn] at hlength
    have hle := hpre.length_le
    exact ⟨hpre.eq_of_length (by omega), by omega⟩
  · rintro ⟨rfl, rfl⟩
    rw [List.take_length]

/-- The exchange takes what is left of the budget, at most the buffer. -/
theorem Kept.settle {budget : LogBudget} {retained decided : List UInt8} (h : Kept budget retained decided)
    (buffer : List UInt8) :
    Kept { budget with remaining := budget.remaining - min budget.remaining buffer.length }
      (retained ++ buffer.take (min budget.remaining buffer.length)) (decided ++ buffer) := by
  rcases h.whole with rfl | hzero
  · refine ⟨List.prefix_append_right_inj _ |>.2 ( List.take_prefix _ _), ?_⟩
    rcases Nat.le_total budget.remaining buffer.length with hle | hle
    · right
      rw [min_eq_left hle]
      exact Nat.sub_self _
    · left
      rw [min_eq_right hle, List.take_length]
  · rw [hzero, Nat.zero_min, List.take_zero, List.append_nil]
    exact ⟨h.isPrefix.trans (List.prefix_append _ _), .inr rfl⟩

/-! ### The views of a reader -/

/-- What a reader still has to do with its buffer. -/
structure View where
  unsettled : List UInt8
  unwritten : List UInt8
  unhashed : List UInt8
  unsent : List UInt8
  short : Bool
  unmarked : Bool

namespace View

def idle : View := ⟨[], [], [], [], false, false⟩

def undecided (buffer : List UInt8) : View := ⟨buffer, [], [], [], false, false⟩

/-- The exchange is done. -/
def settled (buffer : List UInt8) (retained : Nat) (unmarked : Bool) : View :=
  ⟨[], buffer.take retained, buffer.take retained, buffer.take retained, decide (retained ≠ buffer.length), unmarked⟩

end View

def Phase.view : Phase → View
  | .reading => .idle
  | .loading buffer => .undecided buffer
  | .exchanging buffer _ => .undecided buffer
  | .marking buffer retained => .settled buffer retained true
  | .writing buffer retained => .settled buffer retained false
  | .hashing buffer retained => { View.settled buffer retained false with unwritten := [] }
  | .sending buffer retained => { View.settled buffer retained false with unwritten := [], unhashed := [] }
  | .syncing => .idle
  | .ended => .idle
  | .failed => .idle

def bytesOf (stream : LogStream) (chunks : List LogChunk) : List UInt8 :=
  (chunks.filter fun chunk => chunk.stream = stream).flatMap LogChunk.bytes

def countOf (stream : LogStream) (chunks : List LogChunk) : Nat := (chunks.filter fun chunk => chunk.stream = stream).length

theorem bytesOf_append (stream : LogStream) (l l' : List LogChunk) :
    bytesOf stream (l ++ l') = bytesOf stream l ++ bytesOf stream l' := by
  rw [bytesOf, List.filter_append, List.flatMap_append]
  rfl

theorem bytesOf_singleton (stream stream' : LogStream) (bytes : List UInt8) :
    bytesOf stream [⟨stream', bytes⟩] = if stream' = stream then bytes else [] := by
  unfold bytesOf
  split_ifs with h <;> simp [h]

theorem countOf_append (stream : LogStream) (l l' : List LogChunk) :
    countOf stream (l ++ l') = countOf stream l + countOf stream l' := by
  rw [countOf, List.filter_append, List.length_append]
  rfl

theorem countOf_singleton (stream stream' : LogStream) (bytes : List UInt8) :
    countOf stream [⟨stream', bytes⟩] = if stream' = stream then 1 else 0 := by
  unfold countOf
  split_ifs with h <;> simp [h]

/-- What the reader has retained, and of what. -/
def Reader.retained (r : Reader) (v : View) : List UInt8 := r.file ++ v.unwritten

def Reader.decided (r : Reader) (v : View) : List UInt8 := r.output.take (r.position - v.unsettled.length)

/-- The state of a reader with what it still has to do, given the chunks sent so far, and what the earlier steps kept
and made of the stream. -/
structure Sound (budget : LogBudget) (sent : List LogChunk) (kept made : List UInt8) (stream : LogStream) (r : Reader)
    (v : View) : Prop where
  position : r.position ≤ r.output.length
  taken : r.decided v ++ v.unsettled = r.output.take r.position
  hashed : r.hashed ++ v.unhashed = r.retained v
  delivered : bytesOf stream sent ++ v.unsent = r.retained v
  stored : r.stored = (bytesOf stream sent).length
  chunks : r.chunks = countOf stream sent
  own : Kept budget (r.retained v) (r.decided v)
  overall : Kept budget (kept ++ r.retained v) (made ++ r.decided v)
  truncated : (r.truncated = true ∨ v.short = true) ↔ r.retained v ≠ r.decided v
  marked : (budget.truncated stream = true ∨ v.unmarked = true) ↔ kept ++ r.retained v ≠ made ++ r.decided v

section Sound

variable {budget : LogBudget} {sent : List LogChunk} {kept made buffer : List UInt8} {stream : LogStream} {r : Reader}
  {v : View} {n : Nat}

/-- A reader does not notice what the other one does. -/
theorem Sound.frame (h : Sound budget sent kept made stream r v) {budget' : LogBudget} {sent' : List LogChunk}
    (hzero : budget.remaining = 0 → budget'.remaining = 0) (htruncated : budget'.truncated stream = budget.truncated stream)
    (hbytes : bytesOf stream sent' = bytesOf stream sent) (hcount : countOf stream sent' = countOf stream sent) :
    Sound budget' sent' kept made stream r v where
  position := h.position
  taken := h.taken
  hashed := h.hashed
  delivered := hbytes ▸ h.delivered
  stored := hbytes ▸ h.stored
  chunks := hcount ▸ h.chunks
  own := h.own.mono hzero
  overall := h.overall.mono hzero
  truncated := h.truncated
  marked := htruncated ▸ h.marked

/-- The phase itself does not matter. -/
theorem Sound.rephase (h : Sound budget sent kept made stream r v) (phase : Phase) :
    Sound budget sent kept made stream { r with phase := phase } v :=
  ⟨h.position, h.taken, h.hashed, h.delivered, h.stored, h.chunks, h.own, h.overall, h.truncated, h.marked⟩

theorem Sound.read (h : Sound budget sent kept made stream r .idle) (hle : r.position + n ≤ r.output.length) :
    Sound budget sent kept made stream { r with position := r.position + n }
      (.undecided ((r.output.drop r.position).take n)) := by
  have hlength : ((r.output.drop r.position).take n).length = n := by
    rw [List.length_take, List.length_drop]
    omega
  have hdecided : Reader.decided { r with position := r.position + n } (.undecided ((r.output.drop r.position).take n)) =
      r.decided .idle := by
    show r.output.take (r.position + n - ((r.output.drop r.position).take n).length) = r.output.take (r.position - 0)
    rw [hlength, Nat.add_sub_cancel, Nat.sub_zero]
  refine ⟨hle, ?_, h.hashed, h.delivered, h.stored, h.chunks, ?_, ?_, ?_, ?_⟩
  · rw [hdecided]
    show r.output.take (r.position - 0) ++ (r.output.drop r.position).take n = r.output.take (r.position + n)
    rw [Nat.sub_zero, List.take_add]
  · rw [hdecided]
    exact h.own
  · rw [hdecided]
    exact h.overall
  · rw [hdecided]
    exact h.truncated
  · rw [hdecided]
    exact h.marked

theorem Sound.settle (h : Sound budget sent kept made stream r (.undecided buffer)) :
    Sound { budget with remaining := budget.remaining - min budget.remaining buffer.length } sent kept made stream r
      (.settled buffer (min budget.remaining buffer.length)
        (decide (min budget.remaining buffer.length ≠ buffer.length))) := by
  have hretained : r.retained (.undecided buffer) = r.file := List.append_nil _
  have hdecided : ∀ n b, r.decided (.settled buffer n b) = r.decided (.undecided buffer) ++ buffer := by
    intro n b
    have htaken : r.decided (.undecided buffer) ++ buffer = r.output.take r.position := h.taken
    rw [htaken]
    rfl
  have hown := h.own
  have hoverall := h.overall
  have htruncated := h.truncated
  have hmarked := h.marked
  have hhashed : r.hashed ++ [] = r.file := h.hashed.trans hretained
  have hsent : bytesOf stream sent ++ [] = r.file := h.delivered.trans hretained
  rw [hretained] at hown hoverall htruncated hmarked
  have hmin : min budget.remaining buffer.length ≤ buffer.length := min_le_right _ _
  refine ⟨h.position, List.append_nil _, ?_, ?_, h.stored, h.chunks, ?_, ?_, ?_, ?_⟩
  · simp [View.settled, Reader.retained, ← hhashed]
  · simp [View.settled, Reader.retained, ← hsent]
  · rw [hdecided]
    exact hown.settle buffer
  · rw [hdecided, ← List.append_assoc]
    show Kept _ (kept ++ (r.file ++ _)) _
    rw [← List.append_assoc]
    exact hoverall.settle buffer
  · rw [hdecided]
    have hwhole := append_take_eq_iff hown.isPrefix hmin
    have hshort := (or_iff_left Bool.false_ne_true).symm.trans htruncated
    exact (or_congr hshort decide_eq_true_iff).trans (Classical.not_and_iff_not_or_not.symm.trans (not_congr hwhole.symm))
  · rw [hdecided, ← List.append_assoc]
    have hwhole := append_take_eq_iff hoverall.isPrefix hmin
    have hunmarked := (or_iff_left Bool.false_ne_true).symm.trans hmarked
    rw [List.append_assoc] at hwhole
    exact (or_congr hunmarked decide_eq_true_iff).trans (Classical.not_and_iff_not_or_not.symm.trans (not_congr hwhole.symm))

theorem Sound.mark (h : Sound budget sent kept made stream r (.settled buffer n true)) :
    Sound (budget.markTruncated stream) sent kept made stream r (.settled buffer n false) :=
  ⟨h.position, h.taken, h.hashed, h.delivered, h.stored, h.chunks, ⟨h.own.isPrefix, h.own.whole⟩,
    ⟨h.overall.isPrefix, h.overall.whole⟩, h.truncated,
    ⟨fun _ => h.marked.1 (.inr rfl), fun _ => .inl (Function.update_self ..)⟩⟩

theorem Sound.write (h : Sound budget sent kept made stream r (.settled buffer n false)) :
    Sound budget sent kept made stream { r with file := r.file ++ buffer.take n }
      { View.settled buffer n false with unwritten := [] } := by
  have hretained : Reader.retained { r with file := r.file ++ buffer.take n }
      { View.settled buffer n false with unwritten := [] } = r.retained (.settled buffer n false) := List.append_nil _
  exact ⟨h.position, h.taken, hretained ▸ h.hashed, hretained ▸ h.delivered, h.stored, h.chunks, hretained ▸ h.own,
    hretained ▸ h.overall, hretained ▸ h.truncated, hretained ▸ h.marked⟩

theorem Sound.hash (h : Sound budget sent kept made stream r { View.settled buffer n false with unwritten := [] }) :
    Sound budget sent kept made stream { r with hashed := r.hashed ++ buffer.take n }
      { View.settled buffer n false with unwritten := [], unhashed := [] } :=
  ⟨h.position, h.taken, (List.append_nil _).trans h.hashed, h.delivered, h.stored, h.chunks, h.own, h.overall, h.truncated,
    h.marked⟩

theorem Sound.send (hn : n ≤ buffer.length)
    (h : Sound budget sent kept made stream r { View.settled buffer n false with unwritten := [], unhashed := [] }) :
    Sound budget (sent ++ [⟨stream, buffer.take n⟩]) kept made stream
      { r with stored := r.stored + n, chunks := r.chunks + 1 }
      { View.idle with short := decide (n ≠ buffer.length) } := by
  have hbytes : bytesOf stream (sent ++ [⟨stream, buffer.take n⟩]) = bytesOf stream sent ++ buffer.take n := by
    rw [bytesOf_append, bytesOf_singleton, if_pos rfl]
  refine ⟨h.position, h.taken, h.hashed, ?_, ?_, ?_, h.own, h.overall, h.truncated, h.marked⟩
  · rw [hbytes]
    exact (List.append_nil _).trans h.delivered
  · show r.stored + n = _
    rw [hbytes, List.length_append, List.length_take, min_eq_left hn, h.stored]
  · show r.chunks + 1 = _
    rw [countOf_append, countOf_singleton, if_pos rfl, h.chunks]

theorem Sound.turn (h : Sound budget sent kept made stream r { View.idle with short := decide (n ≠ buffer.length) }) :
    Sound budget sent kept made stream (r.turn buffer n) .idle := by
  refine ⟨h.position, h.taken, h.hashed, h.delivered, h.stored, h.chunks, h.own, h.overall, ?_, h.marked⟩
  refine Iff.trans ?_ h.truncated
  show ((r.truncated || decide (n ≠ buffer.length)) = true ∨ false = true) ↔ _
  rw [Bool.or_eq_true, or_iff_left Bool.false_ne_true]

/-- A reader that retained something goes on to write it, and one that did not ends its turn. -/
theorem Sound.afterRetain (h : Sound budget sent kept made stream r (.settled buffer n false)) :
    Sound budget sent kept made stream (r.afterRetain buffer n) (r.afterRetain buffer n).phase.view := by
  unfold Reader.afterRetain
  split_ifs with hpos
  · exact h.rephase _
  · obtain rfl : n = 0 := by omega
    exact h.turn

end Sound

/-! ### The steps of a reader -/

/-- What holds of the data in a phase. -/
def Reader.Fits (r : Reader) : Prop :=
  match r.phase with
  | .marking buffer retained => retained ≤ buffer.length
  | .writing buffer retained => retained ≤ buffer.length
  | .hashing buffer retained => retained ≤ buffer.length
  | .sending buffer retained => retained ≤ buffer.length
  | .syncing => r.position = r.output.length
  | .ended => r.position = r.output.length
  | _ => True

theorem fits_afterRetain {r : Reader} {buffer : List UInt8} {n : Nat} (hn : n ≤ buffer.length) :
    (r.afterRetain buffer n).Fits := by
  unfold Reader.afterRetain
  split_ifs
  · exact hn
  · trivial

section Steps

variable {stream : LogStream} {receiving : Bool} {budget budget' : LogBudget} {queue queue' : List LogChunk} {r r' : Reader}
  {act : Act}

/-- A step of a reader, by what it does. -/
inductive Moves (stream : LogStream) (budget : LogBudget) (queue : List LogChunk) (r : Reader) :
    LogBudget → List LogChunk → Reader → Prop
  | read (n : Nat) (hphase : r.phase = .reading) (hle : r.position + n ≤ r.output.length) :
    Moves stream budget queue r budget queue
      { r with position := r.position + n, phase := .loading ((r.output.drop r.position).take n) }
  | eof (hphase : r.phase = .reading) (hend : r.position = r.output.length) :
    Moves stream budget queue r budget queue { r with phase := .syncing }
  | load (buffer : List UInt8) (hview : r.phase.view = .undecided buffer) :
    Moves stream budget queue r budget queue { r with phase := .exchanging buffer budget.remaining }
  | settleShort (buffer : List UInt8) (hview : r.phase.view = .undecided buffer)
    (hshort : min budget.remaining buffer.length ≠ buffer.length) :
    Moves stream budget queue r { budget with remaining := budget.remaining - min budget.remaining buffer.length } queue
      { r with phase := .marking buffer (min budget.remaining buffer.length) }
  | settle (buffer : List UInt8) (hview : r.phase.view = .undecided buffer)
    (hwhole : min budget.remaining buffer.length = buffer.length) :
    Moves stream budget queue r { budget with remaining := budget.remaining - min budget.remaining buffer.length } queue
      (r.afterRetain buffer (min budget.remaining buffer.length))
  | mark (buffer : List UInt8) (n : Nat) (hphase : r.phase = .marking buffer n) :
    Moves stream budget queue r (budget.markTruncated stream) queue (r.afterRetain buffer n)
  | write (buffer : List UInt8) (n : Nat) (hphase : r.phase = .writing buffer n) :
    Moves stream budget queue r budget queue { r with file := r.file ++ buffer.take n, phase := .hashing buffer n }
  | hash (buffer : List UInt8) (n : Nat) (hphase : r.phase = .hashing buffer n) :
    Moves stream budget queue r budget queue { r with hashed := r.hashed ++ buffer.take n, phase := .sending buffer n }
  | send (buffer : List UInt8) (n : Nat) (hphase : r.phase = .sending buffer n) :
    Moves stream budget queue r budget (queue ++ [⟨stream, buffer.take n⟩])
      ({ r with stored := r.stored + n, chunks := r.chunks + 1 }.turn buffer n)
  | sync (hphase : r.phase = .syncing) : Moves stream budget queue r budget queue { r with phase := .ended }
  | fail : Moves stream budget queue r budget queue { r with phase := .failed }

attribute [local simp] Reader.done

theorem step_moves (h : r.step stream receiving budget queue act = some (budget', queue', r')) :
    Moves stream budget queue r budget' queue' r' ∧ r.done = false := by
  cases act with
  | read count =>
    simp only [Reader.step] at h
    split at h
    · next hphase =>
      split_ifs at h with hcount
      cases h
      exact ⟨.read count hphase hcount.2.2, by simp [hphase]⟩
    · cases h
  | eof =>
    simp only [Reader.step] at h
    split at h
    · next hphase =>
      split_ifs at h with hend
      cases h
      exact ⟨.eof hphase hend, by simp [hphase]⟩
    · cases h
  | load =>
    simp only [Reader.step] at h
    split at h
    · next buffer hphase =>
      cases h
      exact ⟨.load buffer (by rw [hphase]; rfl), by simp [hphase]⟩
    · cases h
  | exchange spurious =>
    simp only [Reader.step] at h
    split at h
    · next buffer remaining hphase =>
      have hview : r.phase.view = .undecided buffer := by rw [hphase]; rfl
      have hdone : r.done = false := by simp [hphase]
      split_ifs at h with hsame hshort
      · obtain ⟨rfl, -⟩ := hsame
        cases h
        exact ⟨.settleShort buffer hview hshort, hdone⟩
      · obtain ⟨rfl, -⟩ := hsame
        cases h
        exact ⟨.settle buffer hview (not_not.1 hshort), hdone⟩
      · cases h
        exact ⟨.load buffer hview, hdone⟩
    · cases h
  | mark =>
    simp only [Reader.step] at h
    split at h
    · next buffer n hphase =>
      cases h
      exact ⟨.mark buffer n hphase, by simp [hphase]⟩
    · cases h
  | write =>
    simp only [Reader.step] at h
    split at h
    · next buffer n hphase =>
      cases h
      exact ⟨.write buffer n hphase, by simp [hphase]⟩
    · cases h
  | hash =>
    simp only [Reader.step] at h
    split at h
    · next buffer n hphase =>
      cases h
      exact ⟨.hash buffer n hphase, by simp [hphase]⟩
    · cases h
  | send =>
    simp only [Reader.step] at h
    split at h
    · next buffer n hphase =>
      split_ifs at h
      cases h
      exact ⟨.send buffer n hphase, by simp [hphase]⟩
    · cases h
  | sync =>
    simp only [Reader.step] at h
    split at h
    · next hphase =>
      cases h
      exact ⟨.sync hphase, by simp [hphase]⟩
    · cases h
  | fail =>
    simp only [Reader.step] at h
    split at h
    · next hphase =>
      cases h
      exact ⟨.fail, by simp [hphase]⟩
    · next hphase =>
      cases h
      exact ⟨.fail, by simp [hphase]⟩
    · next hphase =>
      split_ifs at h
      cases h
      exact ⟨.fail, by simp [hphase]⟩
    · next hphase =>
      cases h
      exact ⟨.fail, by simp [hphase]⟩
    · cases h

/-- What the other reader and the loop see of a step. -/
structure Framed (stream : LogStream) (budget : LogBudget) (queue : List LogChunk) (r : Reader) (budget' : LogBudget)
    (queue' : List LogChunk) (r' : Reader) : Prop where
  output : r'.output = r.output
  zero : budget.remaining = 0 → budget'.remaining = 0
  truncated : ∀ other, other ≠ stream → budget'.truncated other = budget.truncated other
  queue : ∃ new, queue' = queue ++ new ∧ ∀ chunk ∈ new, chunk.stream = stream

theorem afterRetain_output (r : Reader) (buffer : List UInt8) (n : Nat) : (r.afterRetain buffer n).output = r.output := by
  unfold Reader.afterRetain
  split_ifs
  · rfl
  · rfl

theorem Moves.framed (h : Moves stream budget queue r budget' queue' r') :
    Framed stream budget queue r budget' queue' r' := by
  have hnone : ∃ new, queue = queue ++ new ∧ ∀ chunk ∈ new, chunk.stream = stream := ⟨[], by simp, by simp⟩
  have hzero : ∀ n, budget.remaining = 0 → budget.remaining - n = 0 := by
    intro n hn
    rw [hn, Nat.zero_sub]
  cases h with
  | read | eof | load => exact ⟨rfl, id, fun _ _ => rfl, hnone⟩
  | settleShort buffer hview hshort => exact ⟨rfl, hzero _, fun _ _ => rfl, hnone⟩
  | settle buffer hview hwhole => exact ⟨afterRetain_output _ _ _, hzero _, fun _ _ => rfl, hnone⟩
  | mark buffer n hphase => exact ⟨afterRetain_output _ _ _, id, fun _ hne => Function.update_of_ne hne _ _, hnone⟩
  | write | hash => exact ⟨rfl, id, fun _ _ => rfl, hnone⟩
  | send buffer n hphase => exact ⟨rfl, id, fun _ _ => rfl, [_], rfl, by simp⟩
  | sync | fail => exact ⟨rfl, id, fun _ _ => rfl, hnone⟩

/-- The number of bytes that the reader has retained. -/
def Reader.amount (r : Reader) : Nat := (r.retained r.phase.view).length

theorem amount_afterRetain (r : Reader) (buffer : List UInt8) {n : Nat} (hn : n ≤ buffer.length) :
    (r.afterRetain buffer n).amount = r.file.length + n := by
  unfold Reader.afterRetain
  split_ifs with hpos
  · simp [Reader.amount, Reader.retained, Phase.view, View.settled, hn]
  · have hzero : n = 0 := by omega
    simp [Reader.amount, Reader.retained, Reader.turn, Phase.view, View.idle, hzero]

/-- The state of a reader in its pump. -/
structure Reader.Good (r : Reader) (stream : LogStream) (budget : LogBudget) (sent : List LogChunk)
    (kept made : List UInt8) : Prop where
  sound : Sound budget sent kept made stream r r.phase.view
  fits : r.Fits

theorem Moves.good {received : List LogChunk} {kept made : List UInt8} (h : Moves stream budget queue r budget' queue' r')
    (hgood : r.Good stream budget (received ++ queue) kept made) : r'.phase = .failed ∨
      r'.Good stream budget' (received ++ queue') kept made ∧
        budget'.remaining + r'.amount = budget.remaining + r.amount := by
  obtain ⟨hsound, hfits⟩ := hgood
  cases h with
  | read n hphase hle =>
    rw [hphase] at hsound
    refine .inr ⟨⟨(hsound.read hle).rephase _, trivial⟩, ?_⟩
    rw [Reader.amount, Reader.amount, hphase]
    rfl
  | eof hphase hend =>
    rw [hphase] at hsound
    refine .inr ⟨⟨hsound.rephase _, hend⟩, ?_⟩
    rw [Reader.amount, Reader.amount, hphase]
    rfl
  | load buffer hview =>
    rw [hview] at hsound
    refine .inr ⟨⟨hsound.rephase _, trivial⟩, ?_⟩
    rw [Reader.amount, Reader.amount, hview]
    rfl
  | settleShort buffer hview hshort =>
    rw [hview] at hsound
    have hsettled := hsound.settle
    rw [decide_eq_true hshort] at hsettled
    refine .inr ⟨⟨hsettled.rephase _, min_le_right _ _⟩, ?_⟩
    rw [Reader.amount, Reader.amount, hview]
    show _ - _ + (r.file ++ buffer.take (min budget.remaining buffer.length)).length = _ + (r.file ++ []).length
    rw [List.length_append, List.length_take, List.append_nil]
    omega
  | settle buffer hview hwhole =>
    rw [hview] at hsound
    have hsettled := hsound.settle
    rw [decide_eq_false (not_not.2 hwhole)] at hsettled
    refine .inr ⟨⟨hsettled.afterRetain, fits_afterRetain (min_le_right _ _)⟩, ?_⟩
    rw [amount_afterRetain r buffer (min_le_right _ _), Reader.amount, hview]
    show _ - _ + _ = _ + (r.file ++ []).length
    rw [List.append_nil]
    omega
  | mark buffer n hphase =>
    have hn : n ≤ buffer.length := by
      rw [Reader.Fits, hphase] at hfits
      exact hfits
    rw [hphase] at hsound
    refine .inr ⟨⟨hsound.mark.afterRetain, fits_afterRetain hn⟩, ?_⟩
    rw [amount_afterRetain r buffer hn, Reader.amount, hphase]
    show _ = _ + (r.file ++ buffer.take n).length
    rw [List.length_append, List.length_take, min_eq_left hn]
    rfl
  | write buffer n hphase =>
    rw [Reader.Fits, hphase] at hfits
    rw [hphase] at hsound
    refine .inr ⟨⟨hsound.write.rephase _, hfits⟩, ?_⟩
    rw [Reader.amount, Reader.amount, hphase]
    show _ + (r.file ++ buffer.take n ++ []).length = _ + (r.file ++ buffer.take n).length
    rw [List.append_nil]
  | hash buffer n hphase =>
    rw [Reader.Fits, hphase] at hfits
    rw [hphase] at hsound
    refine .inr ⟨⟨hsound.hash.rephase _, hfits⟩, ?_⟩
    rw [Reader.amount, Reader.amount, hphase]
    rfl
  | send buffer n hphase =>
    rw [Reader.Fits, hphase] at hfits
    rw [hphase] at hsound
    rw [← List.append_assoc]
    refine .inr ⟨⟨(hsound.send hfits).turn, trivial⟩, ?_⟩
    rw [Reader.amount, Reader.amount, hphase]
    rfl
  | sync hphase =>
    rw [Reader.Fits, hphase] at hfits
    rw [hphase] at hsound
    refine .inr ⟨⟨hsound.rephase _, hfits⟩, ?_⟩
    rw [Reader.amount, Reader.amount, hphase]
    rfl
  | fail => exact .inl rfl

end Steps

/-! ### The steps of a pump -/

namespace Pump

def amount (p : Pump) : Nat := (p.reader .stdout).amount + (p.reader .stderr).amount

/-- What was handed over is what was received, up to the first chunk that was not uploaded. -/
def Handed (p : Pump) : Prop :=
  (p.uploadError = false → p.handed = p.received ∧ p.acknowledged = p.received) ∧
    (p.uploadError = true → p.handed <+: p.received ∧ ∃ failed, p.handed = p.acknowledged ++ [failed])

/-- The same at each phase of the loop. -/
def Uploads (p : Pump) : Prop :=
  match p.loop with
  | .uploading chunk => p.uploadError = false ∧ p.handed = p.received ∧ p.handed = p.acknowledged ++ [chunk]
  | _ => p.Handed

/-- The state of a pump after earlier steps that kept and made this much of each stream. -/
structure Good (p : Pump) (kept made : LogStream → List UInt8) : Prop where
  readers : ∀ stream, (p.reader stream).Good stream p.budget (p.received ++ p.queue) (kept stream) (made stream)
  uploads : p.Uploads
  drained : p.loop = .joining ∨ p.loop = .returned → p.closed = true ∧ p.queue = []
  ended : p.loop = .returned → ∀ stream, (p.reader stream).phase = .ended

variable {p p' : Pump} {kept made : LogStream → List UInt8} {stream : LogStream} {act : Act} {action : Action}

/-- A step of the pump, by what it does. -/
inductive Turns (p : Pump) : Action → Pump → Prop
  | reader {stream act budget queue r}
    (hr : (p.reader stream).step stream p.receiving p.budget p.queue act = some (budget, queue, r)) :
    Turns p (.reader stream act) { p with budget, queue, reader := Function.update p.reader stream r }
  | monitor (ok : Bool) : Turns p (.monitor ok) { p with monitor := some ok }
  | leave (hloop : p.loop = .checking) (hclosed : p.closed = true) (hqueue : p.queue = []) :
    Turns p .check { p with iterations := p.iterations + 1, loop := .joining }
  | poll (hloop : p.loop = .checking) : Turns p .check { p with iterations := p.iterations + 1, loop := .pollingWait }
  | pending (hloop : p.loop = .pollingWait) : Turns p .pollWait { p with loop := .pollingRecv }
  | waited (hloop : p.loop = .pollingWait) (hfirst : p.waited = false) :
    Turns p .pollWait { p with waited := true, loop := .checking }
  | lost (hloop : p.loop = .pollingWait) : Turns p .pollWait { p with loop := .failed }
  | recv (hloop : p.loop = .pollingRecv) : Turns p .pollRecv p.recv
  | uploaded {chunk} (ok : Bool) (hloop : p.loop = .uploading chunk) :
    Turns p (.uploaded ok) { p with
      acknowledged := if ok then p.acknowledged ++ [chunk] else p.acknowledged
      uploadError := !ok
      loop := .checking }
  | joined {ok} (hloop : p.loop = .joining) (hended : ∀ stream, (p.reader stream).phase = .ended) :
    Turns p (.join ok) { p with loop := .returned }
  | torn {ok} (hloop : p.loop = .joining) : Turns p (.join ok) { p with loop := .failed }

theorem step_turns (hstep : p.step action = some p') : p.Turns action p' := by
  cases action with
  | reader stream act =>
    simp only [step] at hstep
    split at hstep
    · next hr =>
      cases hstep
      exact .reader hr
    · cases hstep
  | monitor ok =>
    simp only [step] at hstep
    split_ifs at hstep
    cases hstep
    exact .monitor ok
  | check =>
    simp only [step] at hstep
    split at hstep
    · next hloop =>
      split_ifs at hstep with hend
      · cases hstep
        rw [Bool.and_eq_true, Bool.and_eq_true, List.isEmpty_iff] at hend
        exact .leave hloop hend.1.2 hend.2
      · cases hstep
        exact .poll hloop
    · cases hstep
  | pollWait =>
    simp only [step] at hstep
    split at hstep
    · next hloop =>
      split_ifs at hstep with hwaited
      · cases hstep
        exact .pending hloop
      · split at hstep <;> cases hstep
        · exact .pending hloop
        · exact .waited hloop (Bool.eq_false_iff.2 hwaited)
        · exact .lost hloop
    · cases hstep
  | pollRecv =>
    simp only [step] at hstep
    split at hstep
    · next hloop =>
      cases hstep
      exact .recv hloop
    · cases hstep
  | uploaded ok =>
    simp only [step] at hstep
    split at hstep
    · next chunk hloop =>
      cases hstep
      exact .uploaded ok hloop
    · cases hstep
  | join ok =>
    simp only [step] at hstep
    split at hstep
    · next hloop =>
      split_ifs at hstep with hended
      · cases hstep
        exact .joined hloop fun stream => by cases stream <;> simp [hended]
      · cases hstep
        exact .torn hloop
    · cases hstep

theorem closed_iff : p.closed = true ↔ ∀ stream, (p.reader stream).done = true := by
  rw [closed, Bool.and_eq_true]
  exact ⟨fun h stream => by cases stream <;> simp [h], fun h => ⟨h .stdout, h .stderr⟩⟩

/-- A reader has failed. -/
def Broken (p : Pump) : Prop := (∃ stream, (p.reader stream).phase = .failed) ∧ p.loop ≠ .returned

/-- A step of the loop keeps the readers and their chunks. -/
theorem Good.loop (h : p.Good kept made) (hreader : p'.reader = p.reader) (hbudget : p'.budget = p.budget)
    (hsent : p'.received ++ p'.queue = p.received ++ p.queue) (huploads : p'.Uploads)
    (hdrained : p'.loop = .joining ∨ p'.loop = .returned → p'.closed = true ∧ p'.queue = [])
    (hended : p'.loop = .returned → ∀ stream, (p'.reader stream).phase = .ended) : p'.Good kept made where
  readers stream := by
    rw [hreader, hbudget, hsent]
    exact h.readers stream
  uploads := huploads
  drained := hdrained
  ended := hended

theorem amount_update {r : Reader} {reader : LogStream → Reader} {n m : Nat}
    (h : n + r.amount = m + (reader stream).amount) :
    n + ((Function.update reader stream r .stdout).amount + (Function.update reader stream r .stderr).amount) =
      m + ((reader .stdout).amount + (reader .stderr).amount) := by
  cases stream with
  | stdout | stderr =>
    rw [Function.update_self, Function.update_of_ne (by decide)]
    omega

theorem bytesOf_framed {stream other : LogStream} (hne : other ≠ stream) {new : List LogChunk}
    (hnew : ∀ chunk ∈ new, chunk.stream = stream) (sent : List LogChunk) :
    bytesOf other (sent ++ new) = bytesOf other sent ∧ countOf other (sent ++ new) = countOf other sent := by
  have hnone : new.filter (fun chunk => chunk.stream = other) = [] := by
    rw [List.filter_eq_nil_iff]
    intro chunk hchunk
    rw [hnew chunk hchunk, decide_eq_true_eq]
    exact hne.symm
  rw [bytesOf_append, countOf_append]
  unfold bytesOf countOf
  rw [hnone]
  exact ⟨List.append_nil _, rfl⟩

theorem good_reader {budget : LogBudget} {queue : List LogChunk} {r : Reader} (h : p.Good kept made)
    (hr : (p.reader stream).step stream p.receiving p.budget p.queue act = some (budget, queue, r))
    (hp' : p' = { p with budget, queue, reader := Function.update p.reader stream r }) :
    p'.Broken ∨ p'.Good kept made ∧ p'.budget.remaining + p'.amount = p.budget.remaining + p.amount := by
  subst hp'
  obtain ⟨hmove, hlive⟩ := step_moves hr
  obtain ⟨-, hzero, htruncated, new, rfl, hnew⟩ := hmove.framed
  -- once the loop is done with the channel, no reader is left to move
  have hopen : ¬p.closed = true := fun hclosed => by
    rw [closed_iff.1 hclosed stream] at hlive
    cases hlive
  rcases hmove.good (h.readers stream) with hfailed | ⟨hgood, hamount⟩
  · refine .inl ⟨⟨stream, (congrArg Reader.phase (Function.update_self ..)).trans hfailed⟩, ?_⟩
    exact fun hloop => hopen (h.drained (.inr hloop)).1
  · refine .inr ⟨⟨?_, h.uploads, fun hloop => absurd (h.drained hloop).1 hopen,
      fun hloop => absurd (h.drained (.inr hloop)).1 hopen⟩, amount_update hamount⟩
    intro other
    by_cases hother : other = stream
    · subst hother
      dsimp only
      rw [Function.update_self]
      exact hgood
    · dsimp only
      rw [Function.update_of_ne hother, ← List.append_assoc]
      obtain ⟨hbytes, hcount⟩ := bytesOf_framed hother hnew (p.received ++ p.queue)
      exact ⟨(h.readers other).sound.frame hzero (htruncated other hother) hbytes hcount, (h.readers other).fits⟩

theorem good_take {chunk : LogChunk} {rest : List LogChunk} (h : p.Good kept made) (hhanded : p.Handed)
    (hqueue : p.queue = chunk :: rest) :
    (p.take chunk rest).Good kept made := by
  have hsent : p.received ++ [chunk] ++ rest = p.received ++ p.queue := by
    rw [hqueue, List.append_assoc]
    rfl
  unfold take
  dsimp only
  split_ifs with herror
  · have herror : p.uploadError = true := herror
    obtain ⟨hpre, failed, hfailed⟩ := hhanded.2 herror
    refine h.loop rfl rfl hsent ⟨fun hno => ?_, fun _ => ⟨hpre.trans (List.prefix_append _ _), failed, hfailed⟩⟩ (by simp)
      (by simp)
    cases herror.symm.trans hno
  · have hnone : p.uploadError = false := Bool.eq_false_iff.2 herror
    obtain ⟨hsame, hacknowledged⟩ := hhanded.1 hnone
    refine h.loop rfl rfl hsent ⟨hnone, ?_, ?_⟩ (by simp) (by simp)
    · dsimp only
      rw [hsame]
    · dsimp only
      rw [hsame, hacknowledged]

theorem recv_readers (p : Pump) : p.recv.reader = p.reader ∧ p.recv.budget = p.budget := by
  unfold recv take
  split
  · dsimp only
    split_ifs <;> exact ⟨rfl, rfl⟩
  · split_ifs <;> exact ⟨rfl, rfl⟩

theorem good_recv (h : p.Good kept made) (hhanded : p.Handed) : p.recv.Good kept made := by
  unfold recv
  split
  · next chunk rest hqueue => exact good_take h hhanded hqueue
  · next hqueue =>
    split_ifs with hclosed hwaited
    · exact h.loop rfl rfl rfl hhanded (fun _ => ⟨hclosed, hqueue⟩) (by simp)
    · exact h.loop rfl rfl rfl hhanded (by simp) (by simp)
    · exact h.loop rfl rfl rfl hhanded (by simp) (by simp)

theorem Good.handed (h : p.Good kept made) (hloop : ∀ chunk, p.loop ≠ .uploading chunk) : p.Handed := by
  have huploads := h.uploads
  unfold Uploads at huploads
  split at huploads
  · next chunk hchunk => exact absurd hchunk (hloop chunk)
  · exact huploads

theorem good_step (h : p.Good kept made) (hstep : p.step action = some p') :
    p'.Broken ∨ p'.Good kept made ∧ p'.budget.remaining + p'.amount = p.budget.remaining + p.amount := by
  cases step_turns hstep with
  | reader hr => exact good_reader h hr rfl
  | monitor ok => exact .inr ⟨h.loop rfl rfl rfl h.uploads h.drained h.ended, rfl⟩
  | leave hloop hclosed hqueue =>
    have hhanded := h.handed (by simp [hloop])
    exact .inr ⟨h.loop rfl rfl rfl hhanded (fun _ => ⟨hclosed, hqueue⟩) (by simp), rfl⟩
  | poll hloop | pending hloop | waited hloop | lost hloop | torn hloop =>
    have hhanded := h.handed (by simp [hloop])
    exact .inr ⟨h.loop rfl rfl rfl hhanded (by simp) (by simp), rfl⟩
  | recv hloop =>
    refine .inr ⟨good_recv h (h.handed (by simp [hloop])), ?_⟩
    obtain ⟨hreader, hbudget⟩ := recv_readers p
    rw [amount, amount, hreader, hbudget]
  | @uploaded chunk ok hloop =>
    have huploads := h.uploads
    rw [Uploads, hloop] at huploads
    obtain ⟨-, hsame, hchunk⟩ := huploads
    refine .inr ⟨h.loop rfl rfl rfl ?_ (by simp) (by simp), rfl⟩
    cases ok with
    | true => exact ⟨fun _ => ⟨hsame, hchunk.symm.trans hsame⟩, by simp⟩
    | false => exact ⟨by simp, fun _ => ⟨hsame ▸ List.prefix_rfl, chunk, hchunk⟩⟩
  | joined hloop hended =>
    have hhanded := h.handed (by simp [hloop])
    exact .inr ⟨h.loop rfl rfl rfl hhanded (fun _ => h.drained (.inl hloop)) (fun _ => hended), rfl⟩

theorem recv_loop (p : Pump) : p.recv.loop ≠ .returned := by
  unfold recv take
  split
  · dsimp only
    split_ifs <;> simp
  · split_ifs <;> simp

/-- A failed reader stays so, and the pump does not return. -/
theorem broken_step (h : p.Broken) (hstep : p.step action = some p') : p'.Broken := by
  obtain ⟨⟨stream, hfailed⟩, hloop⟩ := h
  cases step_turns hstep with
  | @reader other act budget queue r hr =>
    refine ⟨⟨stream, ?_⟩, hloop⟩
    by_cases hother : stream = other
    · subst hother
      have hlive := (step_moves hr).2
      rw [Reader.done, hfailed] at hlive
      cases hlive
    · exact (congrArg Reader.phase (Function.update_of_ne hother ..)).trans hfailed
  | monitor ok => exact ⟨⟨stream, hfailed⟩, hloop⟩
  | recv => exact ⟨⟨stream, by rw [(recv_readers p).1]; exact hfailed⟩, recv_loop p⟩
  | joined _ hended => cases hfailed.symm.trans (hended stream)
  | _ => exact ⟨⟨stream, hfailed⟩, by simp⟩

/-- What the child writes to its two pipes. -/
def outputs (p : Pump) : List UInt8 × List UInt8 := ((p.reader .stdout).output, (p.reader .stderr).output)

theorem outputs_step (hstep : p.step action = some p') : p'.outputs = p.outputs := by
  have hreaders : (∀ stream, (p'.reader stream).output = (p.reader stream).output) → p'.outputs = p.outputs :=
    fun h => Prod.ext (h .stdout) (h .stderr)
  cases step_turns hstep with
  | @reader stream act budget queue r hr =>
    refine hreaders fun other => ?_
    by_cases hother : other = stream
    · subst hother
      exact (congrArg Reader.output (Function.update_self ..)).trans (step_moves hr).1.framed.output
    · exact congrArg Reader.output (Function.update_of_ne hother ..)
  | recv => exact hreaders fun stream => by rw [(recv_readers p).1]
  | _ => rfl

/-- What a step of the job leaves behind. -/
structure Settled (p : Pump) : Prop where
  hashed : ∀ stream, (p.reader stream).hashed = (p.reader stream).file
  queue : p.queue = []
  received : ∀ stream, bytesOf stream p.received = (p.reader stream).file
  handed : p.Handed
  stored : ∀ stream, (p.reader stream).stored = (p.reader stream).file.length
  chunks : ∀ stream, (p.reader stream).chunks = countOf stream p.received
  truncated : ∀ stream, (p.reader stream).truncated = true ↔ (p.reader stream).file ≠ (p.reader stream).output

/-- A reader that has ended has decided on the whole output. -/
theorem Good.at_end (h : p.Good kept made) (hloop : p.loop = .returned) (stream : LogStream) :
    Sound p.budget p.received (kept stream) (made stream) stream (p.reader stream) .idle ∧
      (p.reader stream).retained .idle = (p.reader stream).file ∧
      (p.reader stream).decided .idle = (p.reader stream).output := by
  have hsound := (h.readers stream).sound
  have hfits := (h.readers stream).fits
  rw [Reader.Fits, h.ended hloop stream] at hfits
  rw [h.ended hloop stream, (h.drained (.inr hloop)).2, List.append_nil] at hsound
  refine ⟨hsound, List.append_nil _, ?_⟩
  rw [Reader.decided, hfits]
  exact List.take_length

theorem Good.settled (h : p.Good kept made) (hloop : p.loop = .returned) : p.Settled := by
  have hreceived : ∀ stream, bytesOf stream p.received = (p.reader stream).file := by
    intro stream
    obtain ⟨hsound, hretained, -⟩ := h.at_end hloop stream
    rw [← hretained, ← hsound.delivered]
    exact (List.append_nil _).symm
  refine ⟨?_, (h.drained (.inr hloop)).2, hreceived, h.handed (by simp [hloop]), ?_, ?_, ?_⟩
  · intro stream
    obtain ⟨hsound, hretained, -⟩ := h.at_end hloop stream
    rw [← hretained, ← hsound.hashed]
    exact (List.append_nil _).symm
  · intro stream
    rw [(h.at_end hloop stream).1.stored, hreceived]
  · intro stream
    exact (h.at_end hloop stream).1.chunks
  · intro stream
    obtain ⟨hsound, hretained, hdecided⟩ := h.at_end hloop stream
    have htruncated := hsound.truncated
    rw [hretained, hdecided] at htruncated
    exact (or_iff_left Bool.false_ne_true).symm.trans htruncated

/-- The next pump starts where the last one ended. -/
theorem good_start {budget : LogBudget} {stdout stderr : List UInt8}
    (hkept : ∀ stream, Kept budget (kept stream) (made stream))
    (hmarked : ∀ stream, budget.truncated stream = true ↔ kept stream ≠ made stream) :
    (Pump.start budget stdout stderr).Good kept made := by
  have hreader : ∀ stream output, (Reader.start output).Good stream budget [] (kept stream) (made stream) := by
    intro stream output
    refine ⟨⟨Nat.zero_le _, rfl, rfl, rfl, rfl, rfl, kept_nil budget, ?_, ?_, ?_⟩, trivial⟩
    · simpa [Reader.start, Reader.retained, Reader.decided, Phase.view, View.idle] using hkept stream
    · simp [Reader.start, Reader.retained, Reader.decided, Phase.view, View.idle]
    · simpa [Reader.start, Reader.retained, Reader.decided, Phase.view, View.idle] using hmarked stream
  refine ⟨?_, ⟨fun _ => ⟨rfl, rfl⟩, by simp [start]⟩, by simp [start], by simp [start]⟩
  intro stream
  cases stream with
  | stdout => exact hreader .stdout stdout
  | stderr => exact hreader .stderr stderr

end Pump

/-! ### The steps of a job -/

def retainedOf (stream : LogStream) (steps : List Pump) : List UInt8 := steps.flatMap fun p => (p.reader stream).file

def producedOf (stream : LogStream) (steps : List Pump) : List UInt8 := steps.flatMap fun p => (p.reader stream).output

theorem retainedOf_snoc (stream : LogStream) (steps : List Pump) (p : Pump) :
    retainedOf stream (steps ++ [p]) = retainedOf stream steps ++ (p.reader stream).file := by
  simp [retainedOf, List.flatMap_append]

theorem producedOf_snoc (stream : LogStream) (steps : List Pump) (p : Pump) :
    producedOf stream (steps ++ [p]) = producedOf stream steps ++ (p.reader stream).output := by
  simp [producedOf, List.flatMap_append]

namespace Job

variable {maxBytes : Nat} {j j' : Job}

structure Good (maxBytes : Nat) (j : Job) : Prop where
  current : j.current.Good (fun stream => retainedOf stream j.past) (fun stream => producedOf stream j.past)
  total : j.current.budget.remaining + j.current.amount +
    ((retainedOf .stdout j.past).length + (retainedOf .stderr j.past).length) = maxBytes
  past : ∀ p ∈ j.past, p.Settled

/-- No byte is lost but with a reader that failed. -/
def Kept (maxBytes : Nat) (j : Job) : Prop := j.current.Broken ∨ j.Good maxBytes

theorem kept_start (maxBytes : Nat) (stdout stderr : List UInt8) : (start maxBytes stdout stderr).Kept maxBytes := by
  refine .inr ⟨Pump.good_start (fun _ => kept_nil _) (fun _ => ?_), rfl, by simp [start]⟩
  simp [LogBudget.new, start, retainedOf, producedOf]

/-- The budget after a step that has returned, for the stream and over all steps. -/
theorem Good.returned (h : j.Good maxBytes) (hloop : j.current.loop = .returned) (stream : LogStream) :
    Process.Kept j.current.budget (retainedOf stream (j.past ++ [j.current])) (producedOf stream (j.past ++ [j.current])) ∧
      (j.current.budget.truncated stream = true ↔
        retainedOf stream (j.past ++ [j.current]) ≠ producedOf stream (j.past ++ [j.current])) := by
  obtain ⟨hsound, hretained, hdecided⟩ := h.current.at_end hloop stream
  have hoverall := hsound.overall
  have hmarked := hsound.marked
  rw [hretained, hdecided, ← retainedOf_snoc, ← producedOf_snoc] at hoverall hmarked
  exact ⟨hoverall, (or_iff_left Bool.false_ne_true).symm.trans hmarked⟩

theorem kept_step (action : JobAction) (h : j.Kept maxBytes) (hstep : j.step action = some j') : j'.Kept maxBytes := by
  cases action with
  | pump action =>
    simp only [step, Option.map_eq_some_iff] at hstep
    obtain ⟨p, hp, rfl⟩ := hstep
    rcases h with hbroken | hgood
    · exact .inl (Pump.broken_step hbroken hp)
    · rcases Pump.good_step hgood.current hp with hbroken | ⟨hcurrent, hamount⟩
      · exact .inl hbroken
      · refine .inr ⟨hcurrent, ?_, hgood.past⟩
        rw [← hgood.total]
        exact congrArg (· + _) hamount
  | next stdout stderr =>
    simp only [step] at hstep
    split at hstep
    · next hloop =>
      cases hstep
      rcases h with hbroken | hgood
      · exact absurd hloop hbroken.2
      · have hreturned := hgood.returned hloop
        refine .inr ⟨Pump.good_start (fun stream => (hreturned stream).1) (fun stream => (hreturned stream).2), ?_, ?_⟩
        · have hamount : ∀ stream, (j.current.reader stream).amount = (j.current.reader stream).file.length := by
            intro stream
            rw [Reader.amount, hgood.current.ended hloop stream]
            exact congrArg List.length (List.append_nil _)
          have htotal := hgood.total
          rw [Pump.amount, hamount, hamount] at htotal
          dsimp only
          rw [retainedOf_snoc, retainedOf_snoc, List.length_append, List.length_append]
          show j.current.budget.remaining + 0 + _ = _
          omega
        · intro p hp
          rcases List.mem_append.1 hp with hp | hp
          · exact hgood.past p hp
          · rw [List.mem_singleton] at hp
            subst hp
            exact hgood.current.settled hloop
    · cases hstep

end Job

/-- The outputs of the child that an action starts. -/
def JobAction.outputs : JobAction → Option (List UInt8 × List UInt8)
  | .pump _ => none
  | .next stdout stderr => some (stdout, stderr)

/-- The steps of a job have the outputs that their children were given, in this order. -/
theorem Job.outputs_run {actions : List JobAction} {j j' : Job} (h : Machine.run Job.step j actions = some j') :
    (j'.past ++ [j'.current]).map Pump.outputs =
      (j.past ++ [j.current]).map Pump.outputs ++ actions.filterMap JobAction.outputs := by
  induction actions generalizing j with
  | nil =>
    cases h
    simp
  | cons action actions ih =>
    obtain ⟨j₁, hstep, hrun⟩ := Machine.run_cons.1 h
    rw [ih hrun]
    cases action with
    | pump action =>
      simp only [step, Option.map_eq_some_iff] at hstep
      obtain ⟨p, hp, rfl⟩ := hstep
      simp [Pump.outputs_step hp, List.filterMap_cons, JobAction.outputs]
    | next stdout stderr =>
      simp only [step] at hstep
      split at hstep
      · cases hstep
        simp [JobAction.outputs, Pump.outputs, Pump.start, Reader.start]
      · cases hstep

/-- What the pump promises of the steps it has run, whose children had these outputs. -/
structure Faithful (maxBytes : Nat) (outputs : List (List UInt8 × List UInt8)) (steps : List Pump) (budget : LogBudget) :
    Prop where
  outputs : steps.map Pump.outputs = outputs
  total : (retainedOf .stdout steps).length + (retainedOf .stderr steps).length =
    min maxBytes ((producedOf .stdout steps).length + (producedOf .stderr steps).length)
  beginning : ∀ stream, retainedOf stream steps <+: producedOf stream steps
  hashed : ∀ p ∈ steps, ∀ stream, (p.reader stream).hashed = (p.reader stream).file
  handed : ∀ p ∈ steps, p.Handed ∧ ∀ stream, bytesOf stream p.handed <+: (p.reader stream).file ∧
    (p.uploadError = false → bytesOf stream p.handed = (p.reader stream).file)
  evidence : ∀ p ∈ steps, ∀ stream, (p.reader stream).evidence.byteCount = (p.reader stream).file.length ∧
    ((p.reader stream).evidence.truncated = true ↔ (p.reader stream).file ≠ (p.reader stream).output)
  flagged : ∀ stream, budget.truncated stream = true ↔ retainedOf stream steps ≠ producedOf stream steps
  complete : ∀ p ∈ steps, p.queue = [] ∧ (∀ stream, bytesOf stream p.received = (p.reader stream).file) ∧
    (p.uploadError = true ∨ p.handed = p.received)

theorem bytesOf_mono (stream : LogStream) {l l' : List LogChunk} (h : l <+: l') :
    bytesOf stream l <+: bytesOf stream l' := by
  obtain ⟨rest, rfl⟩ := h
  rw [bytesOf_append]
  exact List.prefix_append _ _

/-- However readers, loop and monitor interleave, what a job's steps have kept by the time a step returns is what the
pump promises. -/
theorem pump_faithful (maxBytes : Nat) (stdout stderr : List UInt8) (actions : List JobAction) (j : Job)
    (h : Machine.run Job.step (Job.start maxBytes stdout stderr) actions = some j) (hloop : j.current.loop = .returned) :
    Faithful maxBytes ((stdout, stderr) :: actions.filterMap JobAction.outputs) (j.past ++ [j.current]) j.current.budget := by
  have hkept : j.Kept maxBytes := Machine.invariant (fun _ action _ hj => Job.kept_step action hj)
    (Job.kept_start maxBytes stdout stderr) h
  have hgood : j.Good maxBytes := hkept.resolve_left fun hbroken => hbroken.2 hloop
  have hreturned := hgood.returned hloop
  have hsettled : ∀ p ∈ j.past ++ [j.current], p.Settled := by
    intro p hp
    rcases List.mem_append.1 hp with hp | hp
    · exact hgood.past p hp
    · rw [List.mem_singleton] at hp
      exact hp ▸ hgood.current.settled hloop
  refine ⟨Job.outputs_run h, ?_, fun stream => (hreturned stream).1.isPrefix, fun p hp => (hsettled p hp).hashed, ?_, ?_,
    fun stream => (hreturned stream).2, ?_⟩
  · -- either nothing was dropped, or the budget is used up
    have htotal := hgood.total
    have hamount : ∀ stream, (j.current.reader stream).amount = (j.current.reader stream).file.length := by
      intro stream
      rw [Reader.amount, hgood.current.ended hloop stream]
      exact congrArg List.length (List.append_nil _)
    rw [Pump.amount, hamount, hamount] at htotal
    have hspent : ∀ stream, (retainedOf stream (j.past ++ [j.current])).length =
        (retainedOf stream j.past).length + (j.current.reader stream).file.length := by
      intro stream
      rw [retainedOf_snoc, List.length_append]
    have hout := (hreturned .stdout).1
    have herr := (hreturned .stderr).1
    have houtle := hout.isPrefix.length_le
    have herrle := herr.isPrefix.length_le
    have hspentOut := hspent .stdout
    have hspentErr := hspent .stderr
    rcases hout.whole with hsame | hzero
    · rcases herr.whole with hsame' | hzero
      · rw [← hsame, ← hsame']
        omega
      · omega
    · omega
  · intro p hp
    have hp := hsettled p hp
    refine ⟨hp.handed, fun stream => ⟨?_, fun hnone => ?_⟩⟩
    · rw [← hp.received stream]
      cases herror : p.uploadError with
      | true => exact bytesOf_mono stream (hp.handed.2 herror).1
      | false => exact bytesOf_mono stream ((hp.handed.1 herror).1 ▸ List.prefix_rfl)
    · rw [(hp.handed.1 hnone).1]
      exact hp.received stream
  · intro p hp stream
    exact ⟨(hsettled p hp).stored stream, (hsettled p hp).truncated stream⟩
  · intro p hp
    have hp := hsettled p hp
    refine ⟨hp.queue, hp.received, ?_⟩
    cases herror : p.uploadError with
    | true => exact .inl rfl
    | false => exact .inr (hp.handed.1 herror).1

/-- A step that writes three bytes under a budget of two, of which the second upload fails, and one that writes nothing. -/
def briefRun : List JobAction :=
  ([.reader .stdout (.read 1), .reader .stdout .load, .check, .pollWait, .reader .stdout (.exchange false),
    .reader .stderr .eof, .reader .stdout .write, .reader .stdout .hash, .reader .stdout .send, .pollRecv,
    .reader .stdout (.read 2), .uploaded true, .reader .stdout .load, .reader .stdout (.exchange false),
    .reader .stdout .mark, .reader .stdout .write, .reader .stdout .hash, .reader .stdout .send, .check, .pollWait, .pollRecv,
    .reader .stdout .eof, .reader .stdout .sync, .uploaded false, .monitor true, .reader .stderr .sync, .check, .pollWait,
    .check, .join true] : List Action).map .pump ++ [.next [] []] ++
  ([.reader .stderr .eof, .reader .stdout .eof, .reader .stdout .sync, .reader .stderr .sync, .monitor true, .check,
    .pollWait, .check, .join true] : List Action).map .pump

theorem pump_faithful_brief : ∃ j, Machine.run Job.step (Job.start 2 [104, 105, 106] []) briefRun = some j ∧
    Faithful 2 [([104, 105, 106], []), ([], [])] (j.past ++ [j.current]) j.current.budget := by
  have hrun : (Machine.run Job.step (Job.start 2 [104, 105, 106] []) briefRun).any
      (fun j => j.current.loop = .returned) = true := by decide
  rw [Option.any_eq_true] at hrun
  obtain ⟨j, hj, hloop⟩ := hrun
  exact ⟨j, hj, pump_faithful 2 [104, 105, 106] [] briefRun j hj (of_decide_eq_true hloop)⟩

end CYC.Process
