import ShadowProxy.Tape.Consistent

/-! What `aclose` leaves in the queue of the tape. -/

namespace ShadowProxy.MismatchTape

open Data Effects

variable {queueSize : ℕ} {s s' : State} {L : List Label} {l : Label}

/-- When `aclose` is called the queue is empty, or holds one row and the writer waits for it; from then on the
writer's wait does not time out with a row in the queue, and rows are offered only to a queue of size one with
the writer waiting. -/
def Met (s : State) : Label → Prop
  | .aclose => s.queue.items.length ≤ if s.writer = .waiting then 1 else 0
  | .timeout => s.closing = .notCalled ∨ s.rows = []
  | .offer _ => s.closing = .notCalled ∨ s.writer = .waiting ∧ s.queue.maxsize = 1
  | _ => True

def State.left (s : State) : List Offered :=
  (if s.writer = .waiting then s.queue.items.tail else s.queue.items).reduceOption

lemma left_of_ne (hw : s.writer ≠ .waiting) : s.left = s.rows := by
  rw [State.left, if_neg hw]
  rfl

lemma left_of_waiting (hw : s.writer = .waiting) : s.left = s.queue.items.tail.reduceOption := by
  rw [State.left, if_pos hw]

lemma reduceOption_eq_nil {α : Type} {items : List (Option α)} (h : none ∉ items) :
    items.reduceOption = [] ↔ items = [] := by
  cases items with
  | nil => simp
  | cons entry items =>
    cases entry with
    | none => simp at h
    | some a => simp

lemma left_aclose (h : Consistent queueSize s) (hc : s.closing = .notCalled) :
    s.aclose.left = [] ↔ Met s .aclose := by
  obtain ⟨-, hn, -⟩ := h.untold hc
  obtain ⟨q, he, hcases⟩ := aclose_eq s
  have hrows : q.items.reduceOption = s.queue.items.reduceOption ∧
      q.items.tail.reduceOption = s.queue.items.tail.reduceOption := by
    rcases hcases with ⟨-, rfl⟩ | ⟨-, rfl⟩
    · refine ⟨by simp [List.reduceOption_append, List.reduceOption_singleton], ?_⟩
      cases s.queue.items <;> simp [List.reduceOption_append, List.reduceOption_singleton]
    · exact ⟨rfl, rfl⟩
  rw [he]
  by_cases hw : s.writer = .waiting
  · have htail : none ∉ s.queue.items.tail := fun hmem => hn (List.mem_of_mem_tail hmem)
    simp only [State.left, Met, hw, if_true, hrows.2, reduceOption_eq_nil htail]
    cases s.queue.items <;> simp
  · simp only [State.left, Met, hw, if_false, hrows.1, reduceOption_eq_nil hn]
    simp

lemma left_offer (h : Consistent queueSize s) (hc : s.closing = .joining) (row : TapeRow) :
    (s.offer row).1.left = [] ↔ s.left = [] ∧ Met s (.offer row) := by
  have hstopped : s.stopped = true := h.stopped_iff.mpr (by simp [hc])
  obtain ⟨q, evicted, he, hmax, hcases⟩ := h.offer_cases row
  by_cases hw : s.writer = .waiting
  · have hitems := h.woken hstopped hw
    have hmet : Met s (.offer row) ↔ queueSize = 1 := by simp [Met, hc, hw, h.maxsize]
    have hleft : (s.offer row).1.left = q.items.tail.reduceOption := by
      rw [he]
      exact left_of_waiting hw
    rw [hmet, hleft, left_of_waiting hw]
    rcases hcases with ⟨hfull, hq, -⟩ | ⟨hfull, old, items, hold, hq, -⟩
    · -- something precedes the row, which stays
      have hstays : q.items.tail.reduceOption ≠ [] := by
        rw [hq, List.tail_append_of_ne_nil hitems, List.reduceOption_append]
        simp
      refine ⟨fun hnil => absurd hnil hstays, fun hone => absurd ?_ hitems⟩
      have hlt := (AsyncQueue.room_of_not_full (h.maxsize.trans hone.2) le_rfl).mp hfull
      exact List.length_eq_zero_iff.mp (by omega)
    · have hsize : queueSize ≠ 0 ∧ queueSize ≤ items.length + 1 := by
        simp only [AsyncQueue.full, h.maxsize, hold, Bool.and_eq_true, decide_eq_true_eq] at hfull
        exact hfull
      have hroom := h.room hsize.1
      rw [hold, List.length_cons] at hroom
      rw [hold, List.tail_cons]
      cases items with
      | nil =>
        have hone : queueSize = 1 := le_antisymm hsize.2 hroom
        simp [hq, hone]
      | cons entry items =>
        have hstays : q.items.tail.reduceOption ≠ [] := by
          rw [hq, List.cons_append, List.tail_cons, List.reduceOption_append]
          simp
        rw [List.length_cons] at hroom hsize
        refine ⟨fun hnil => absurd hnil hstays, fun hone => ?_⟩
        omega
  · have hlast : q.items.reduceOption ≠ [] := by
      rcases hcases with ⟨-, hq, -⟩ | ⟨-, old, items, -, hq, -⟩ <;> rw [hq, List.reduceOption_append] <;> simp
    have hleft : (s.offer row).1.left = q.items.reduceOption := by
      rw [he]
      exact left_of_ne hw
    simp [hleft, hlast, Met, hc, hw]

lemma left_step (h : Consistent queueSize s) (hc : s.closing = .joining) (hs : s.step l = some s')
    (hl : s'.closing ≠ .timedOut) : s'.left = [] ↔ s.left = [] ∧ Met s l := by
  have hstopped : s.stopped = true := h.stopped_iff.mpr (by simp [hc])
  cases l with
  | start =>
    obtain ⟨hw, -⟩ := Option.ite_none_right_eq_some.mp hs
    exact absurd hw (h.joins hc)
  | offer row =>
    obtain rfl := Option.some.inj hs
    exact left_offer h hc row
  | run =>
    simp only [Met, and_true]
    rcases run_told hstopped hs with ⟨hw, rfl⟩ | ⟨entry, items, hw, hitems, rfl⟩
    · simp [State.left, State.ended, hw]
    · simp [State.left, State.ended, hw, hitems]
  | timeout =>
    obtain ⟨hw, rfl⟩ := step_timeout hs
    rw [test_told hstopped, left_of_waiting hw]
    have hleft : (s.ended s.queue.items []).left = s.rows := left_of_ne (by simp [State.ended])
    rw [hleft]
    constructor
    · intro hrows
      refine ⟨?_, .inr hrows⟩
      rw [State.rows] at hrows
      cases hitems : s.queue.items with
      | nil => rfl
      | cons entry items =>
        rw [hitems] at hrows
        cases entry with
        | none => exact hrows
        | some row => simp at hrows
    · rintro ⟨-, hc' | hrows⟩
      · rw [hc] at hc'
        cases hc'
      · exact hrows
  | aclose =>
    obtain ⟨hc', -⟩ := Option.ite_none_right_eq_some.mp hs
    rw [hc] at hc'
    cases hc'
  | join =>
    obtain ⟨-, he⟩ := Option.ite_none_right_eq_some.mp hs
    obtain rfl := Option.some.inj he
    exact (and_iff_left trivial).symm
  | giveUp =>
    obtain ⟨-, he⟩ := Option.ite_none_right_eq_some.mp hs
    obtain rfl := Option.some.inj he
    exact absurd rfl hl

lemma closing_test (s : State) : s.test.closing = s.closing := rfl

lemma closing_step (hs : s.step l = some s') : s'.closing = s.closing ∧ l ≠ .aclose ∨
    l = .aclose ∧ s.closing = .notCalled ∧ s' = s.aclose ∨
    l = .join ∧ s.closing = .joining ∧ s.writer = .finished ∧ s' = { s with closing := .returned } ∨
    l = .giveUp ∧ s'.closing = .timedOut := by
  cases l with
  | start =>
    obtain ⟨-, he⟩ := Option.ite_none_right_eq_some.mp hs
    obtain rfl := Option.some.inj he
    exact .inl ⟨rfl, by simp⟩
  | offer row =>
    obtain rfl := Option.some.inj hs
    refine .inl ⟨?_, by simp⟩
    simp only [State.offer]
    split
    · rfl
    · split
      · rfl
      · split <;> rfl
  | run =>
    rcases step_run hs with ⟨-, rfl⟩ | ⟨-, entry, items, -, rfl⟩
    · exact .inl ⟨closing_test s, by simp⟩
    · cases entry with
      | none => exact .inl ⟨rfl, by simp⟩
      | some row => exact .inl ⟨closing_test _, by simp⟩
  | timeout =>
    obtain ⟨-, rfl⟩ := step_timeout hs
    exact .inl ⟨closing_test s, by simp⟩
  | aclose =>
    obtain ⟨hc, he⟩ := Option.ite_none_right_eq_some.mp hs
    exact .inr (.inl ⟨rfl, hc, (Option.some.inj he).symm⟩)
  | join =>
    obtain ⟨⟨hc, hw⟩, he⟩ := Option.ite_none_right_eq_some.mp hs
    exact .inr (.inr (.inl ⟨rfl, hc, hw, (Option.some.inj he).symm⟩))
  | giveUp =>
    obtain ⟨-, he⟩ := Option.ite_none_right_eq_some.mp hs
    obtain rfl := Option.some.inj he
    exact .inr (.inr (.inr ⟨rfl, rfl⟩))

structure Judged (queueSize : ℕ) (L : List Label) (s : State) : Prop where
  before : s.closing = .notCalled → Run queueSize (fun _ => Met) L s
  after : s.closing = .joining → (s.left = [] ↔ Run queueSize (fun _ => Met) L s)

lemma Judged.left_iff (hj : Judged queueSize L s) (h : Run queueSize (fun _ _ _ => True) L s)
    (hs : s.step l = some s')
    (hclosing : s.closing = .notCalled ∧ l = .aclose ∨ s.closing = .joining ∧ s'.closing ≠ .timedOut) :
    s'.left = [] ↔ Run queueSize (fun _ => Met) (L ++ [l]) s' := by
  rw [Run, h.snoc_iff hs]
  rcases hclosing with ⟨hc, rfl⟩ | ⟨hc, hgiven⟩
  · obtain ⟨-, he⟩ := Option.ite_none_right_eq_some.mp hs
    obtain rfl := Option.some.inj he
    rw [left_aclose (consistent h) hc]
    exact (and_iff_right (hj.before hc)).symm
  · rw [left_step (consistent h) hc hs hgiven, hj.after hc]

theorem judged (h : Run queueSize (fun _ _ _ => True) L s) : Judged queueSize L s := by
  induction h with
  | nil => exact ⟨fun _ => .nil, fun hc => (by cases hc)⟩
  | @snoc L s l s' h _ hs hj =>
    constructor
    · intro hc'
      rcases closing_step hs with ⟨hsame, hl⟩ | ⟨-, -, rfl⟩ | ⟨-, -, -, rfl⟩ | ⟨-, hgiven⟩
      · have hc := hsame ▸ hc'
        refine (hj.before hc).snoc ?_ hs
        cases l with
        | aclose => exact absurd rfl hl
        | offer row => exact .inl hc
        | timeout => exact .inl hc
        | _ => trivial
      · obtain ⟨q, he, -⟩ := aclose_eq s
        rw [he] at hc'
        have hcalled : (if s.writer = .absent then ClosePhase.returned else .joining) ≠ .notCalled :=
          by split <;> simp
        exact absurd hc' hcalled
      · cases hc'
      · rw [hgiven] at hc'
        cases hc'
    · intro hc'
      apply hj.left_iff h hs
      rcases closing_step hs with ⟨hsame, -⟩ | ⟨rfl, hc, -⟩ | ⟨-, -, -, rfl⟩ | ⟨-, hgiven⟩
      · exact .inr ⟨hsame ▸ hc', by simp [hc']⟩
      · exact .inl ⟨hc, rfl⟩
      · cases hc'
      · rw [hgiven] at hc'
        cases hc'

def State.Flushed (s : State) : Prop :=
  s.mismatches = (s.offered.filter fun entry => entry ∉ s.evicted) ∧ ∀ entry ∈ s.queue.items, entry = none

lemma Consistent.flushed_rows (h : Consistent queueSize s) : s.Flushed ↔ s.rows = [] := by
  have horder := h.ledger.order
  have hnone : (∀ entry ∈ s.queue.items, entry = none) ↔ s.rows = [] := by
    rw [State.rows, List.reduceOption, List.filterMap_eq_nil_iff]
    rfl
  rw [State.Flushed, hnone]
  constructor
  · exact And.right
  · intro hrows
    rw [hrows, List.append_nil] at horder
    exact ⟨horder, hrows⟩

theorem flushed_iff (h : Run queueSize (fun _ _ _ => True) L s) (hs : s.step l = some s')
    (hopen : s.closing ≠ .returned) (hreturned : s'.closing = .returned) :
    s'.Flushed ↔ Run queueSize (fun _ => Met) (L ++ [l]) s' := by
  have hconsistent := consistent (h.snoc trivial hs)
  rcases closing_step hs with ⟨hsame, -⟩ | ⟨rfl, hc, he⟩ | ⟨rfl, hc, hw, he⟩ | ⟨-, hgiven⟩
  · rw [hsame] at hreturned
    exact absurd hreturned hopen
  · have hw : s'.writer ≠ .waiting := by
      obtain ⟨q, hclosed, -⟩ := aclose_eq s
      rw [he, hclosed] at hreturned ⊢
      intro hw
      have hjoining : (if s.writer = .absent then ClosePhase.returned else .joining) = .joining :=
        if_neg (by simp_all)
      rw [hjoining] at hreturned
      cases hreturned
    rw [hconsistent.flushed_rows, ← left_of_ne hw]
    exact (judged h).left_iff h hs (.inl ⟨hc, rfl⟩)
  · have hw' : s'.writer ≠ .waiting := by
      rw [he]
      simp [hw]
    rw [hconsistent.flushed_rows, ← left_of_ne hw']
    exact (judged h).left_iff h hs (.inr ⟨hc, by simp [hreturned]⟩)
  · rw [hgiven] at hreturned
    cases hreturned

instance (s : State) : DecidablePred (Met s)
  | .aclose => inferInstanceAs (Decidable (s.queue.items.length ≤ if s.writer = .waiting then 1 else 0))
  | .timeout => inferInstanceAs (Decidable (s.closing = .notCalled ∨ s.rows = []))
  | .offer _ => inferInstanceAs (Decidable (s.closing = .notCalled ∨ s.writer = .waiting ∧ s.queue.maxsize = 1))
  | .start | .run | .join | .giveUp => inferInstanceAs (Decidable True)

def someRow : TapeRow where
  requestId := ['1']
  finalizedAt := []
  route := []
  verdict := .mismatch
  primaryModel := []
  candidateModel := []
  primaryAction := none
  candidateAction := none
  primaryContent := []
  candidateContent := []
  primaryLatencyMs := 0
  candidateLatencyMs := 0
  reasons := []
  requestBody := .null

def lastRow : State :=
  replayed State.step (fun _ => Met) (State.initial 1)
    [.start, .run, .offer someRow, .offer someRow, .offer someRow, .aclose, .run]

theorem flushed_last : lastRow.mismatches.length = 1 ∧ { lastRow with closing := .returned }.Flushed := by
  have hmet : Run 1 (fun _ => Met) _ lastRow := trace_replayed (by decide)
  have hjoin : lastRow.step .join = some { lastRow with closing := .returned } :=
    step_join (by decide) (by decide)
  exact ⟨by decide, (flushed_iff (hmet.mono fun _ _ _ _ => trivial) hjoin (by decide) rfl).mpr
    (hmet.snoc trivial hjoin)⟩

/-- Two rows offered before the writer wakes: it writes the first, sees the event and ends. -/
theorem second_row_lost : ∃ s, Run 1024 (fun _ _ _ => True)
      [.start, .run, .offer someRow, .offer someRow, .aclose, .run, .join] s ∧
    s.closing = .returned ∧ s.offered.length = 2 ∧ s.evicted = [] ∧ s.mismatches = s.offered.take 1 ∧
    ¬ s.Flushed := by
  refine ⟨_, trace_replayed (by decide), ?_⟩
  rw [State.Flushed]
  decide

end ShadowProxy.MismatchTape
