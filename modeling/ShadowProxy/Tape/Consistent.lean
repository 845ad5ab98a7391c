import Mathlib.Data.List.ReduceOption
import ShadowProxy.Data.Ledger
import ShadowProxy.Tape.Machine

/-! What every run of the tape keeps. -/

namespace ShadowProxy.MismatchTape

open Data

variable {queueSize : ℕ} {s s' : State} {L : List Label} {l : Label} {row : TapeRow}

def State.rows (s : State) : List Offered := s.queue.items.reduceOption

structure Consistent (queueSize : ℕ) (s : State) : Prop where
  maxsize : s.queue.maxsize = queueSize
  room : queueSize ≠ 0 → s.queue.items.length ≤ queueSize
  ledger : Ledger s.offered s.evicted s.mismatches s.rows
  fresh : ∀ entry ∈ s.offered, entry.number < s.offered.length
  untold : s.closing = .notCalled → s.stopped = false ∧ none ∉ s.queue.items ∧ s.writer ≠ .finished
  told : s.closing ≠ .notCalled → s.stopped = true
  joins : s.closing = .joining → s.writer ≠ .absent
  woken : s.stopped = true → s.writer = .waiting → s.queue.items ≠ []

lemma consistent_initial (queueSize : ℕ) : Consistent queueSize (State.initial queueSize) where
  maxsize := rfl
  room := fun _ => Nat.zero_le _
  ledger := .nil
  fresh := by simp [State.initial]
  untold := by simp [State.initial, AsyncQueue.empty]
  told := fun h => absurd rfl h
  joins := by simp [State.initial]
  woken := by simp [State.initial]

lemma Consistent.stopped_iff (h : Consistent queueSize s) : s.stopped = true ↔ s.closing ≠ .notCalled := by
  refine ⟨fun hstopped hclosing => ?_, h.told⟩
  rw [(h.untold hclosing).1] at hstopped
  cases hstopped

lemma writerLoop_stopped (items : List (Option Offered)) (mismatches : List Offered) :
    State.writerLoop true items mismatches = (.finished, items, mismatches) := by
  unfold State.writerLoop
  exact if_pos rfl

lemma writerLoop_waits {items : List (Option Offered)} (h : none ∉ items) (mismatches : List Offered) :
    State.writerLoop false items mismatches = (.waiting, [], mismatches ++ items.reduceOption) := by
  induction items generalizing mismatches with
  | nil => simp [State.writerLoop]
  | cons entry items ih =>
    cases entry with
    | none => simp at h
    | some row =>
      have hloop := ih (fun hn => h (List.mem_cons_of_mem _ hn)) (mismatches ++ [row])
      rw [List.reduceOption_cons_of_some, List.append_cons]
      exact hloop

def State.ended (s : State) (items : List (Option Offered)) (taken : List Offered) : State :=
  { s with writer := .finished, queue := { s.queue with items := items }, mismatches := s.mismatches ++ taken }

def State.drained (s : State) : State :=
  { s with writer := .waiting, queue := { s.queue with items := [] }, mismatches := s.mismatches ++ s.rows }

lemma test_told (h : s.stopped = true) : s.test = s.ended s.queue.items [] := by
  rw [State.test, State.ended]
  rw [h, writerLoop_stopped, List.append_nil]

lemma test_untold (h : s.stopped = false) (hn : none ∉ s.queue.items) : s.test = s.drained := by
  rw [State.test, State.drained]
  rw [h, writerLoop_waits hn]
  rfl

lemma step_run (hs : s.step .run = some s') : s.writer = .ready ∧ s' = s.test ∨
    s.writer = .waiting ∧ ∃ entry items, s.queue.items = entry :: items ∧
      s' = { s with queue := { s.queue with items := items } }.got entry := by
  simp only [State.step] at hs
  split at hs
  · rename_i hw
    exact .inl ⟨hw, (Option.some.inj hs).symm⟩
  · rename_i hw
    refine .inr ⟨hw, ?_⟩
    cases hitems : s.queue.items with
    | nil => simp [AsyncQueue.getNowait, hitems] at hs
    | cons entry items =>
      simp only [AsyncQueue.getNowait, hitems, Option.map_some, Option.some.injEq] at hs
      exact ⟨entry, items, rfl, hs.symm⟩
  · cases hs

lemma run_told (h : s.stopped = true) (hs : s.step .run = some s') :
    s.writer = .ready ∧ s' = s.ended s.queue.items [] ∨
    ∃ entry items, s.writer = .waiting ∧ s.queue.items = entry :: items ∧ s' = s.ended items entry.toList := by
  rcases step_run hs with ⟨hw, rfl⟩ | ⟨hw, entry, items, hitems, rfl⟩
  · exact .inl ⟨hw, test_told h⟩
  · refine .inr ⟨entry, items, hw, hitems, ?_⟩
    cases entry with
    | none => simp [State.got, State.ended]
    | some row =>
      refine Eq.trans (test_told ?_) ?_
      · exact h
      · simp [State.ended]

lemma run_untold (h : s.stopped = false) (hn : none ∉ s.queue.items) (hs : s.step .run = some s') :
    s' = s.drained := by
  rcases step_run hs with ⟨hw, rfl⟩ | ⟨hw, entry, items, hitems, rfl⟩
  · exact test_untold h hn
  · cases entry with
    | none => simp [hitems] at hn
    | some row =>
      rw [hitems] at hn
      have hrest : none ∉ items := fun hmem => hn (List.mem_cons_of_mem _ hmem)
      refine Eq.trans (test_untold ?_ ?_) ?_
      · exact h
      · exact hrest
      · simp [State.drained, State.rows, hitems]

lemma step_timeout (hs : s.step .timeout = some s') : s.writer = .waiting ∧ s' = s.test := by
  obtain ⟨hw, hs⟩ := Option.ite_none_right_eq_some.mp hs
  exact ⟨hw, (Option.some.inj hs).symm⟩

lemma step_join (hc : s.closing = .joining) (hw : s.writer = .finished) :
    s.step .join = some { s with closing := .returned } := if_pos ⟨hc, hw⟩

lemma Consistent.offer_cases (h : Consistent queueSize s) (row : TapeRow) : ∃ q evicted,
    s.offer row = ({ s with queue := q, offered := s.offered ++ [s.newOffer row], evicted := evicted }, true) ∧
    q.maxsize = s.queue.maxsize ∧
    (s.queue.full = false ∧ q.items = s.queue.items ++ [some (s.newOffer row)] ∧ evicted = s.evicted ∨
    s.queue.full = true ∧ ∃ old items, s.queue.items = old :: items ∧
      q.items = items ++ [some (s.newOffer row)] ∧ evicted = s.evicted ++ old.toList) := by
  let entry := s.newOffer row
  cases hfull : s.queue.full with
  | false =>
    let q : AsyncQueue (Option Offered) :=
      { s.queue with items := s.queue.items ++ [some entry], unfinished := s.queue.unfinished + 1 }
    have hput : s.queue.putNowait (some entry) = some q := AsyncQueue.putNowait_eq_some.mpr ⟨hfull, rfl⟩
    refine ⟨q, s.evicted, ?_, rfl, .inl ⟨rfl, rfl, rfl⟩⟩
    simp only [State.offer, entry, hput]
  | true =>
    have hput : s.queue.putNowait (some entry) = none := AsyncQueue.putNowait_eq_none.mpr hfull
    have hsize : queueSize ≠ 0 ∧ queueSize ≤ s.queue.items.length := by
      have hdef := hfull
      simp only [AsyncQueue.full, h.maxsize, Bool.and_eq_true, decide_eq_true_eq] at hdef
      exact hdef
    have hroom := h.room hsize.1
    cases hitems : s.queue.items with
    | nil =>
      rw [hitems, List.length_nil] at hsize
      omega
    | cons old items =>
      rw [hitems, List.length_cons] at hroom
      let q : AsyncQueue (Option Offered) := { s.queue with items := items }
      have hget : s.queue.getNowait = some (old, q) := by simp only [AsyncQueue.getNowait, hitems, q]
      have hnot : q.full = false := by
        have hmax : q.maxsize = queueSize := h.maxsize
        exact (AsyncQueue.room_of_not_full hmax (Nat.one_le_iff_ne_zero.mpr hsize.1)).mpr hroom
      let q' : AsyncQueue (Option Offered) :=
        { q with items := items ++ [some entry], unfinished := q.unfinished + 1 }
      have hput' : q.putNowait (some entry) = some q' := AsyncQueue.putNowait_eq_some.mpr ⟨hnot, rfl⟩
      refine ⟨q', s.evicted ++ old.toList, ?_, rfl, .inr ⟨rfl, old, items, rfl, rfl, rfl⟩⟩
      simp only [State.offer, entry, hput, hget, hput']

lemma Consistent.newOffer (h : Consistent queueSize s) (row : TapeRow) : s.newOffer row ∉ s.offered :=
  fun hmem => lt_irrefl _ (h.fresh _ hmem)

lemma Consistent.ended (h : Consistent queueSize s) (hstopped : s.stopped = true)
    {items : List (Option Offered)} {taken : List Offered} (hrows : s.rows = taken ++ items.reduceOption)
    (hlen : items.length ≤ s.queue.items.length) : Consistent queueSize (s.ended items taken) where
  maxsize := h.maxsize
  room := fun hsize => le_trans hlen (h.room hsize)
  ledger := by
    have hl := h.ledger
    rw [hrows] at hl
    exact hl.take
  fresh := h.fresh
  untold := fun hclosing => absurd hclosing (h.stopped_iff.mp hstopped)
  told := fun _ => hstopped
  joins := fun _ => by simp [State.ended]
  woken := fun _ hw => by simp [State.ended] at hw

lemma Consistent.drained (h : Consistent queueSize s) (hclosing : s.closing = .notCalled) :
    Consistent queueSize s.drained where
  maxsize := h.maxsize
  room := fun _ => Nat.zero_le _
  ledger := by
    have hl := h.ledger
    rw [← List.append_nil s.rows] at hl
    exact hl.take
  fresh := h.fresh
  untold := fun _ => ⟨(h.untold hclosing).1, List.not_mem_nil, by simp [State.drained]⟩
  told := h.told
  joins := fun _ => by simp [State.drained]
  woken := fun hstopped => absurd hclosing (h.stopped_iff.mp hstopped)

lemma Consistent.offer (h : Consistent queueSize s) (row : TapeRow) : Consistent queueSize (s.offer row).1 := by
  have hnew := h.newOffer row
  obtain ⟨q, evicted, he, hmax, hcases⟩ := h.offer_cases row
  rw [he]
  have hfresh : ∀ entry ∈ s.offered ++ [s.newOffer row], entry.number < (s.offered ++ [s.newOffer row]).length :=
    by
    intro entry hmem
    rw [List.length_append, List.length_singleton]
    rcases List.mem_append.mp hmem with hmem | hmem
    · exact Nat.lt_succ_of_lt (h.fresh entry hmem)
    · rw [List.mem_singleton.mp hmem]
      exact Nat.lt_succ_self _
  have hitems : q.items ≠ [] := by
    rcases hcases with ⟨-, hq, -⟩ | ⟨-, old, items, -, hq, -⟩ <;> simp [hq]
  have hsentinel : none ∉ s.queue.items → none ∉ q.items := by
    intro hn
    rcases hcases with ⟨-, hq, -⟩ | ⟨-, old, items, hold, hq, -⟩ <;> rw [hq]
    · simpa using hn
    · rw [hold] at hn
      simpa using fun hmem => hn (List.mem_cons_of_mem _ hmem)
  refine ⟨hmax.trans h.maxsize, fun hsize => ?_, ?_, hfresh, fun hc => ?_, h.told, h.joins, fun _ _ => hitems⟩
  · rcases hcases with ⟨hfull, hq, -⟩ | ⟨-, old, items, hold, hq, -⟩
    · have hlt := (AsyncQueue.room_of_not_full h.maxsize (Nat.one_le_iff_ne_zero.mpr hsize)).mp hfull
      rw [hq, List.length_append]
      exact hlt
    · have hroom := h.room hsize
      rw [hold, List.length_cons] at hroom
      rw [hq, List.length_append]
      exact hroom
  · have hl := h.ledger
    rcases hcases with ⟨-, hq, rfl⟩ | ⟨-, old, items, hold, hq, rfl⟩
    · rw [State.rows, hq, List.reduceOption_append]
      exact hl.put hnew
    · rw [State.rows, hq, List.reduceOption_append]
      rw [State.rows, hold] at hl
      cases old with
      | none =>
        rw [List.reduceOption_cons_of_none] at hl
        rw [Option.toList_none, List.append_nil]
        exact hl.put hnew
      | some entry =>
        rw [List.reduceOption_cons_of_some] at hl
        exact hl.evict.put hnew
  · obtain ⟨hstopped, hn, hw⟩ := h.untold hc
    exact ⟨hstopped, hsentinel hn, hw⟩

lemma aclose_eq (s : State) : ∃ q, s.aclose = { s with
      stopped := true, queue := q, closing := if s.writer = .absent then .returned else .joining } ∧
    (s.queue.full = false ∧
      q = { s.queue with items := s.queue.items ++ [none], unfinished := s.queue.unfinished + 1 } ∨
    s.queue.full = true ∧ q = s.queue) := by
  cases hput : s.queue.putNowait none with
  | some q =>
    refine ⟨q, ?_, .inl (AsyncQueue.putNowait_eq_some.mp hput)⟩
    simp only [State.aclose, hput]
  | none =>
    refine ⟨s.queue, ?_, .inr ⟨AsyncQueue.putNowait_eq_none.mp hput, rfl⟩⟩
    simp only [State.aclose, hput]

lemma Consistent.aclose (h : Consistent queueSize s) : Consistent queueSize s.aclose := by
  obtain ⟨q, he, hcases⟩ := aclose_eq s
  rw [he]
  have hcalled : (if s.writer = .absent then ClosePhase.returned else .joining) ≠ .notCalled := by split <;> simp
  refine ⟨?_, fun hsize => ?_, ?_, h.fresh, fun hc => absurd hc hcalled, fun _ => rfl, fun hc hw =>
    ?_, fun _ _ => ?_⟩
  · rcases hcases with ⟨-, rfl⟩ | ⟨-, rfl⟩ <;> exact h.maxsize
  · rcases hcases with ⟨hfull, rfl⟩ | ⟨-, rfl⟩
    · have hlt := (AsyncQueue.room_of_not_full h.maxsize (Nat.one_le_iff_ne_zero.mpr hsize)).mp hfull
      rw [List.length_append]
      exact hlt
    · exact h.room hsize
  · rcases hcases with ⟨-, rfl⟩ | ⟨-, rfl⟩
    · rw [State.rows, List.reduceOption_append, List.reduceOption_singleton, Option.toList_none, List.append_nil]
      exact h.ledger
    · exact h.ledger
  · have hreturned : (if s.writer = .absent then ClosePhase.returned else .joining) = .returned := if_pos hw
    rw [hreturned] at hc
    cases hc
  · rcases hcases with ⟨-, rfl⟩ | ⟨hfull, rfl⟩
    · simp
    · intro hnil
      have hnil' : s.queue.items = [] := hnil
      simp only [AsyncQueue.full, hnil', List.length_nil, Bool.and_eq_true, decide_eq_true_eq] at hfull
      omega

theorem Consistent.step (h : Consistent queueSize s) (hs : s.step l = some s') : Consistent queueSize s' := by
  have hcalled : s.stopped = true ∨ s.stopped = false ∧ s.closing = .notCalled := by
    by_cases hc : s.closing = .notCalled
    · exact .inr ⟨(h.untold hc).1, hc⟩
    · exact .inl (h.told hc)
  cases l with
  | start =>
    obtain ⟨hw, he⟩ := Option.ite_none_right_eq_some.mp hs
    obtain rfl := Option.some.inj he
    exact ⟨h.maxsize, h.room, h.ledger, h.fresh, fun hc => ⟨(h.untold hc).1, (h.untold hc).2.1, by simp⟩, h.told,
      fun _ => by simp, fun _ hw => by cases hw⟩
  | offer row =>
    obtain rfl := Option.some.inj hs
    exact h.offer row
  | run =>
    rcases hcalled with hstopped | ⟨hstopped, hc⟩
    · rcases run_told hstopped hs with ⟨-, rfl⟩ | ⟨entry, items, -, hitems, rfl⟩
      · exact h.ended hstopped rfl le_rfl
      · refine h.ended hstopped ?_ ?_
        · rw [State.rows, hitems]
          cases entry <;> rfl
        · rw [hitems]
          exact Nat.le_succ _
    · rw [run_untold hstopped (h.untold hc).2.1 hs]
      exact h.drained hc
  | timeout =>
    obtain ⟨-, rfl⟩ := step_timeout hs
    rcases hcalled with hstopped | ⟨hstopped, hc⟩
    · rw [test_told hstopped]
      exact h.ended hstopped rfl le_rfl
    · rw [test_untold hstopped (h.untold hc).2.1]
      exact h.drained hc
  | aclose =>
    obtain ⟨-, he⟩ := Option.ite_none_right_eq_some.mp hs
    obtain rfl := Option.some.inj he
    exact h.aclose
  | join =>
    obtain ⟨⟨hc, hw⟩, he⟩ := Option.ite_none_right_eq_some.mp hs
    obtain rfl := Option.some.inj he
    have hstopped : s.stopped = true := h.stopped_iff.mpr (by simp [hc])
    exact ⟨h.maxsize, h.room, h.ledger, h.fresh, fun hc' => (by cases hc'), fun _ => hstopped, fun hc' =>
      (by cases hc'), h.woken⟩
  | giveUp =>
    obtain ⟨⟨hc, hw⟩, he⟩ := Option.ite_none_right_eq_some.mp hs
    obtain rfl := Option.some.inj he
    have hstopped : s.stopped = true := h.stopped_iff.mpr (by simp [hc])
    exact ⟨h.maxsize, h.room, h.ledger, h.fresh, fun hc' => (by cases hc'), fun _ => hstopped, fun hc' =>
      (by cases hc'), fun _ hw' => (by cases hw')⟩

theorem consistent {C : List Label → State → Label → Prop} (h : Run queueSize C L s) : Consistent queueSize s :=
  h.invariant (I := fun _ => Consistent queueSize) (consistent_initial queueSize) fun _ ih _ hs => ih.step hs

end ShadowProxy.MismatchTape
