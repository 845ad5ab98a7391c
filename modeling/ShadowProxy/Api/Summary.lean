import ShadowProxy.Lifecycle.Leftovers

/-! One call of `summary` whose three queries see three states of the table. -/

namespace ShadowProxy

open SqlComparisonStore

def inWindow (now : DateTime) (window : ℤ) (received : DateTime) : Bool := now.instant - window ≤ received.instant

def windowRows (now : DateTime) (window : ℤ) (t : Rows) : Rows :=
  t.filter fun r => inWindow now window r.receivedAt

/-- `since` is computed once, before the queries: the count, the counts by verdict and the latencies. -/
def summaryAcross (now : DateTime) (window : ℤ) (t₁ t₂ t₃ : Rows) : SummaryStats :=
  let primaryLats := (windowRows now window t₃).map fun r => r.primaryLatencyMs
  let candidateLats := (windowRows now window t₃).filterMap fun r => r.candidateLatencyMs
  { windowSeconds := window / 1000000
    total := (windowRows now window t₁).length
    verdicts := fun v => (windowRows now window t₂).countP fun r => r.verdict = v
    primaryLatencyP50Ms := percentile primaryLats (1 / 2)
    primaryLatencyP95Ms := percentile primaryLats (19 / 20)
    candidateLatencyP50Ms := percentile candidateLats (1 / 2)
    candidateLatencyP95Ms := percentile candidateLats (19 / 20) }

lemma summaryAcross_self (now : DateTime) (window : ℤ) (t : Rows) :
    summaryAcross now window t t t = summary now window t := rfl

def SummaryStats.counted (stats : SummaryStats) : ℕ :=
  stats.verdicts .pending + stats.verdicts .primaryError + stats.finalized

lemma countP_verdicts (rows : Rows) :
    rows.countP (fun r => r.verdict = .pending) + rows.countP (fun r => r.verdict = .primaryError) +
      (rows.countP (fun r => r.verdict = .matched) + rows.countP (fun r => r.verdict = .mismatch) +
        rows.countP (fun r => r.verdict = .invalidJson) + rows.countP (fun r => r.verdict = .candidateError)) =
          rows.length := by
  induction rows with
  | nil => rfl
  | cons row rows ih =>
    simp only [List.countP_cons, List.length_cons]
    cases row.verdict <;> simp <;> omega

section Calls

variable {now : DateTime} {window : ℤ} {t : Rows}

def StoreCall.addsRow (now : DateTime) (window : ℤ) : StoreCall → Bool
  | .insertPending record => inWindow now window record.receivedAt
  | _ => false

def StoreCall.setsLatency : StoreCall → Bool
  | .finalize _ _ patch => patch.candidateLatencyMs.isSome
  | _ => false

lemma windowRows_modify {f : ComparisonRow → ComparisonRow} (hf : ∀ r, (f r).receivedAt = r.receivedAt)
    (id : Str) (t : Rows) :
    windowRows now window (Data.Table.modify rowId id f t) =
      Data.Table.modify rowId id f (windowRows now window t) := by
  have hkey : ∀ r, inWindow now window (if rowId r = id then f r else r).receivedAt =
      inWindow now window r.receivedAt := fun r => by
    split
    · rw [hf]
    · rfl
  simp only [windowRows, Data.Table.modify, List.filter_map, Function.comp_def, hkey]

lemma windowRows_insert (record : PendingComparison) (t : Rows) : windowRows now window (insertPending record t) =
    windowRows now window t ++ if inWindow now window record.receivedAt then [newRow record] else [] := by
  rw [windowRows, insertPending, List.filter_append]
  cases h : inWindow now window record.receivedAt <;> simp [windowRows, h]

lemma windowRows_markInProgress (time : DateTime) (id : Str) (t : Rows) :
    windowRows now window (markInProgress time id t) = markInProgress time id (windowRows now window t) :=
  windowRows_modify (fun r => congrArg PendingComparison.receivedAt (markedInProgress_pending time r)) id t

lemma windowRows_finalize (time : DateTime) (id : Str) (patch : FinalizePatch) (t : Rows) :
    windowRows now window (finalize time id patch t) = finalize time id patch (windowRows now window t) :=
  windowRows_modify (fun r => congrArg PendingComparison.receivedAt (finalized_pending time patch r)) id t

lemma length_execute (call : StoreCall) (t : Rows) : (windowRows now window (call.execute t)).length =
    (windowRows now window t).length + if call.addsRow now window then 1 else 0 := by
  cases call with
  | insertPending record =>
    rw [StoreCall.execute, windowRows_insert, StoreCall.addsRow]
    cases inWindow now window record.receivedAt <;> simp
  | markInProgress time id =>
    rw [StoreCall.execute, windowRows_markInProgress, markInProgress, Data.Table.modify, List.length_map]
    rfl
  | finalize time id patch =>
    rw [StoreCall.execute, windowRows_finalize, finalize, Data.Table.modify, List.length_map]
    rfl

lemma length_history (calls : List StoreCall) (t : Rows) :
    (windowRows now window (calls.foldl StoreCall.execute t)).length =
    (windowRows now window t).length + calls.countP (StoreCall.addsRow now window) := by
  induction calls generalizing t with
  | nil => rfl
  | cons call calls ih =>
    rw [List.foldl_cons, ih, length_execute, List.countP_cons]
    omega

def latencies (rows : Rows) : List ℤ × List ℤ :=
  (rows.map fun r => r.primaryLatencyMs, rows.filterMap fun r => r.candidateLatencyMs)

lemma latencies_modify {f : ComparisonRow → ComparisonRow} (hp : ∀ r, (f r).primaryLatencyMs = r.primaryLatencyMs)
    (hc : ∀ r, (f r).candidateLatencyMs = r.candidateLatencyMs) (id : Str) (rows : Rows) :
    latencies (Data.Table.modify rowId id f rows) = latencies rows := by
  have hp' : ∀ r, (if rowId r = id then f r else r).primaryLatencyMs = r.primaryLatencyMs := fun r => by
    split
    · exact hp r
    · rfl
  have hc' : ∀ r, (if rowId r = id then f r else r).candidateLatencyMs = r.candidateLatencyMs := fun r => by
    split
    · exact hc r
    · rfl
  simp only [latencies, Data.Table.modify, List.map_map, List.filterMap_map, Function.comp_def, hp', hc']

lemma latencies_execute {call : StoreCall} (hadd : call.addsRow now window = false)
    (hset : call.setsLatency = false) (t : Rows) :
    latencies (windowRows now window (call.execute t)) = latencies (windowRows now window t) := by
  cases call with
  | insertPending record =>
    rw [StoreCall.addsRow] at hadd
    rw [StoreCall.execute, windowRows_insert, hadd, if_neg (by simp), List.append_nil]
  | markInProgress time id =>
    rw [StoreCall.execute, windowRows_markInProgress]
    exact latencies_modify (f := markedInProgress time) (fun _ => rfl) (fun _ => rfl) id _
  | finalize time id patch =>
    rw [StoreCall.setsLatency, Option.isSome_eq_false_iff, Option.isNone_iff_eq_none] at hset
    rw [StoreCall.execute, windowRows_finalize]
    refine latencies_modify (f := finalized time patch) (fun _ => rfl) (fun r => ?_) id _
    rw [finalized, hset, Option.none_or]

lemma latencies_history {calls : List StoreCall}
    (h : ∀ call ∈ calls, call.addsRow now window = false ∧ call.setsLatency = false) (t : Rows) :
    latencies (windowRows now window (calls.foldl StoreCall.execute t)) = latencies (windowRows now window t) := by
  induction calls generalizing t with
  | nil => rfl
  | cons call calls ih =>
    obtain ⟨hadd, hset⟩ := h call List.mem_cons_self
    rw [List.foldl_cons, ih fun c hc => h c (List.mem_cons_of_mem _ hc), latencies_execute hadd hset]

end Calls

/-- Each query counts a committed table of its own; the figures are those of one table where no row is added
between the first two queries, and neither a row nor a latency between the last two. -/
theorem summary_across_writes (now : DateTime) (window : ℤ) (t : Rows) (calls₁ calls₂ : List StoreCall) :
    let t₂ := calls₁.foldl StoreCall.execute t
    let t₃ := calls₂.foldl StoreCall.execute t₂
    let stats := summaryAcross now window t t₂ t₃
    stats.counted = stats.total + calls₁.countP (StoreCall.addsRow now window) ∧
      (stats.counted = stats.total ↔ ∀ call ∈ calls₁, call.addsRow now window = false) ∧
      ((∀ call ∈ calls₁, call.addsRow now window = false) →
        (∀ call ∈ calls₂, call.addsRow now window = false ∧ call.setsLatency = false) →
        stats = summary now window t₂) := by
  intro t₂ t₃ stats
  have hcounted : stats.counted = stats.total + calls₁.countP (StoreCall.addsRow now window) := by
    have hlength : stats.total + calls₁.countP (StoreCall.addsRow now window) =
        (windowRows now window t₂).length :=
      (length_history calls₁ t).symm
    rw [hlength]
    exact countP_verdicts _
  refine ⟨hcounted, ?_, fun h₁ h₂ => ?_⟩
  · rw [hcounted, Nat.add_eq_left, List.countP_eq_zero]
    simp
  · have htotal : (windowRows now window t).length = (windowRows now window t₂).length := by
      rw [length_history, List.countP_eq_zero.mpr (by simpa using h₁), Nat.add_zero]
    have hlat := latencies_history h₂ t₂
    rw [← summaryAcross_self]
    obtain ⟨hp, hc⟩ := Prod.mk.inj hlat
    simp only [stats, summaryAcross, htotal, t₃, hp, hc]

theorem summary_counts_apart : ¬ ∀ (now : DateTime) (window : ℤ) (t : Rows) (calls₁ calls₂ : List StoreCall),
    (summaryAcross now window t (calls₁.foldl StoreCall.execute t)
      (calls₂.foldl StoreCall.execute (calls₁.foldl StoreCall.execute t))).counted =
    (summaryAcross now window t (calls₁.foldl StoreCall.execute t)
      (calls₂.foldl StoreCall.execute (calls₁.foldl StoreCall.execute t))).total := by
  intro h
  exact absurd (h anHourLater 7200000000 [] [.insertPending leftoverRecord] []) (by decide)

end ShadowProxy
