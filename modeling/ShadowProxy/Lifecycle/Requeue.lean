import ShadowProxy.Effects.Alone
import ShadowProxy.Scenario

/-! What the requeue at startup pushes back. -/

namespace ShadowProxy

open Effects Prog SqlComparisonStore InProcessDispatcher

def offerAll (cfg : DispatcherConfig) (queue jobs : List CandidateJob) : List CandidateJob :=
  jobs.foldl (fun q job => (enqueue cfg q job).1) queue

section Queue

variable {cfg : DispatcherConfig} {queue : List CandidateJob}

lemma enqueue_room (h : queue.length < cfg.queueCapacity) (job : CandidateJob) :
    (enqueue cfg queue job).1 = queue ++ [job] := by
  unfold enqueue
  rw [if_pos h]

lemma enqueue_dropNew (hp : cfg.overflowPolicy = .dropNew) (h : ¬ queue.length < cfg.queueCapacity)
    (job : CandidateJob) : (enqueue cfg queue job).1 = queue := by
  unfold enqueue
  rw [if_neg h, hp]

lemma enqueue_dropOld (hp : cfg.overflowPolicy = .dropOld) {j : CandidateJob}
    (h : ¬ (j :: queue).length < cfg.queueCapacity) (job : CandidateJob) :
    (enqueue cfg (j :: queue) job).1 = queue ++ [job] := by
  unfold enqueue
  rw [if_neg h, hp]

lemma offerAll_dropNew (hp : cfg.overflowPolicy = .dropNew) (hq : queue.length ≤ cfg.queueCapacity)
    (jobs : List CandidateJob) :
    offerAll cfg queue jobs = queue ++ jobs.take (cfg.queueCapacity - queue.length) := by
  induction jobs generalizing queue with
  | nil => simp [offerAll]
  | cons job jobs ih =>
    rw [offerAll, List.foldl_cons]
    by_cases hroom : queue.length < cfg.queueCapacity
    · have hlen : (queue ++ [job]).length = queue.length + 1 := by simp
      have hn : cfg.queueCapacity - queue.length = cfg.queueCapacity - (queue ++ [job]).length + 1 := by omega
      have hrec := @ih (queue ++ [job]) (by omega)
      rw [offerAll, List.append_assoc, List.singleton_append] at hrec
      rw [enqueue_room hroom, hn, List.take_succ_cons, hrec]
    · have hn : cfg.queueCapacity - queue.length = 0 := by omega
      rw [enqueue_dropNew hp hroom, ← offerAll, ih hq, hn, List.take_zero, List.take_zero]

lemma offerAll_dropOld (hp : cfg.overflowPolicy = .dropOld) (hq : queue.length ≤ cfg.queueCapacity)
    (jobs : List CandidateJob) :
    offerAll cfg queue jobs = (queue ++ jobs).drop (queue.length + jobs.length - cfg.queueCapacity) := by
  induction jobs generalizing queue with
  | nil =>
    have hn : queue.length + ([] : List CandidateJob).length - cfg.queueCapacity = 0 := by
      rw [List.length_nil]
      omega
    rw [hn, List.append_nil, List.drop_zero]
    rfl
  | cons job jobs ih =>
    rw [offerAll, List.foldl_cons, List.length_cons]
    by_cases hroom : queue.length < cfg.queueCapacity
    · have hlen : (queue ++ [job]).length = queue.length + 1 := by simp
      have hrec := @ih (queue ++ [job]) (by omega)
      have hn : (queue ++ [job]).length + jobs.length = queue.length + (jobs.length + 1) := by omega
      rw [offerAll, List.append_assoc, List.singleton_append, hn] at hrec
      rw [enqueue_room hroom, hrec]
    · cases queue with
      | nil =>
        have hpos := cfg.queueCapacity_pos
        rw [List.length_nil] at hroom
        omega
      | cons j rest =>
        have hlen : (rest ++ [job]).length = (j :: rest).length := by simp
        have hn : (j :: rest).length + (jobs.length + 1) - cfg.queueCapacity =
            (rest ++ [job]).length + jobs.length - cfg.queueCapacity + 1 := by omega
        have hrec := @ih (rest ++ [job]) (hlen ▸ hq)
        rw [offerAll, List.append_assoc, List.singleton_append] at hrec
        rw [enqueue_dropOld hp hroom, hrec, hn, List.cons_append, List.drop_succ_cons]

/-- How many new jobs one after the other can come to wait in the queue together. -/
def room (cfg : DispatcherConfig) (queue : List CandidateJob) : ℕ :=
  match cfg.overflowPolicy with
  | .dropNew => cfg.queueCapacity - queue.length
  | .dropOld => cfg.queueCapacity

def jobsBy (t : ℕ) (queue : List CandidateJob) : List CandidateJob := queue.filter fun job => job.enqueuedBy = t

variable {t : ℕ} {jobs : List CandidateJob}

lemma jobsBy_offerAll (hq : queue.length ≤ cfg.queueCapacity) (hnew : jobsBy t queue = [])
    (hjobs : ∀ job ∈ jobs, job.enqueuedBy = t) :
    jobsBy t (offerAll cfg queue jobs) =
      match cfg.overflowPolicy with
      | .dropNew => jobs.take (room cfg queue)
      | .dropOld => jobs.drop (jobs.length - room cfg queue) := by
  have hmine : ∀ jobs' : List CandidateJob, jobs' ⊆ jobs → jobsBy t jobs' = jobs' := fun jobs' hsub =>
    List.filter_eq_self.mpr fun job hm => decide_eq_true (hjobs job (hsub hm))
  have hold : ∀ n, jobsBy t (queue.drop n) = [] := fun n => by
    have hsub : (jobsBy t (queue.drop n)).Sublist (jobsBy t queue) := (List.drop_sublist n queue).filter _
    rw [hnew] at hsub
    exact List.sublist_nil.mp hsub
  cases hp : cfg.overflowPolicy with
  | dropNew =>
    rw [offerAll_dropNew hp hq, jobsBy, List.filter_append, ← jobsBy, ← jobsBy, hnew, room, hp]
    exact hmine _ (List.take_subset _ _)
  | dropOld =>
    rw [offerAll_dropOld hp hq, List.drop_append, jobsBy, List.filter_append, ← jobsBy, ← jobsBy, hold, room, hp,
      hmine _ (List.drop_subset _ _)]
    dsimp only
    rw [List.nil_append]
    congr 1
    omega

lemma length_jobsBy (hq : queue.length ≤ cfg.queueCapacity) (hnew : jobsBy t queue = [])
    (hjobs : ∀ job ∈ jobs, job.enqueuedBy = t) :
    (jobsBy t (offerAll cfg queue jobs)).length = min jobs.length (room cfg queue) := by
  rw [jobsBy_offerAll hq hnew hjobs]
  cases cfg.overflowPolicy with
  | dropNew => rw [List.length_take, min_comm]
  | dropOld =>
    rw [List.length_drop]
    omega

lemma jobsBy_of_room (hq : queue.length ≤ cfg.queueCapacity) (hnew : jobsBy t queue = [])
    (hjobs : ∀ job ∈ jobs, job.enqueuedBy = t) (hroom : jobs.length ≤ room cfg queue) :
    jobsBy t (offerAll cfg queue jobs) = jobs := by
  rw [jobsBy_offerAll hq hnew hjobs]
  cases cfg.overflowPolicy with
  | dropNew => exact List.take_of_length_le hroom
  | dropOld => rw [Nat.sub_eq_zero_of_le hroom, List.drop_zero]

end Queue

def requeue (ids : List Str) : Program ℕ := do
  forEach (fun requestId => do let _ ← perform (.enqueue requestId)) ids
  return List.length ids

section Run

variable {dep : Deployment} {t : ℕ} {k : Kind} {s s' : State}

/-- Nothing else touches the replica's queue: the loop of the requeue never gives control away. -/
def Undisturbed (x : ℕ) (s s' : State) : Prop := (s'.procs x).queue = (s.procs x).queue

lemma Undisturbed.trans {x : ℕ} {s₁ s₂ s₃ : State} (h : Undisturbed x s₁ s₂) (h' : Undisturbed x s₂ s₃) :
    Undisturbed x s₁ s₃ :=
  Eq.trans h' h

abbrev jobOf (t : ℕ) (requestId : Str) : CandidateJob := ⟨requestId, t⟩

lemma must_requeue_each (ids : List Str) : Must (S := system dep) (Undisturbed k.replica) (fun _ => True) t k s
    (forEach (fun requestId => do let _ ← perform (.enqueue requestId)) ids) fun s' res => res = .ok () ∧
      (s'.procs k.replica).queue = offerAll dep.config.dispatcher (s.procs k.replica).queue (ids.map (jobOf t)) :=
        by
  induction ids generalizing s with
  | nil => exact ⟨rfl, rfl⟩
  | cons id ids ih =>
    refine (must_bind _ _).mpr ((must_bind _ _).mpr (must_perform fun s₁ res hR hl _ => ?_))
    cases res with
    | error e => exact hl.elim
    | ok dispatch =>
      refine (must_ret _).mpr (Must.mono ih fun s₂ res h => ⟨h.1, ?_⟩)
      have hqueue : (s₁.procs k.replica).queue = (s.procs k.replica).queue := hR
      rw [h.2]
      simp only [after, State.setProc, Function.update_self, hqueue]
      rfl

lemma must_requeue (ids : List Str) :
    Must (S := system dep) (Undisturbed k.replica) (fun _ => True) t k s (requeue ids)
    fun s' res => res = .ok ids.length ∧
      (s'.procs k.replica).queue = offerAll dep.config.dispatcher (s.procs k.replica).queue (ids.map (jobOf t)) :=
        by
  refine (must_bind _ _).mpr (Must.mono (must_requeue_each ids) ?_)
  rintro s' res ⟨rfl, hq⟩
  exact ⟨rfl, hq⟩

structure LosesNothing (t : ℕ) (rows : Rows) (queue : List CandidateJob) (n : ℕ) : Prop where
  count : n = (jobsBy t queue).length
  rows : ∀ row ∈ unfinishedRows rows, jobOf t row.requestId ∈ jobsBy t queue

lemma findAllUnfinished_length {limit : ℕ} {rows : Rows} {ids : List Str} (h : FindAllUnfinished limit rows ids) :
    ids.length = min limit (unfinishedRows rows).length := by
  obtain ⟨sorted, hperm, -, rfl⟩ := h
  rw [List.length_map, List.length_take, hperm.length_eq]

lemma mem_findAllUnfinished {limit : ℕ} {rows : Rows} {ids : List Str} (h : FindAllUnfinished limit rows ids)
    (hlimit : (unfinishedRows rows).length ≤ limit) {row : ComparisonRow} (hrow : row ∈ unfinishedRows rows) :
    row.requestId ∈ ids := by
  obtain ⟨sorted, hperm, -, rfl⟩ := h
  rw [List.take_of_length_le (hperm.length_eq ▸ hlimit)]
  exact List.mem_map_of_mem (hperm.mem_iff.mpr hrow)

theorem requeue_losesNothing_iff {limit : ℕ} {ids : List Str}
    (hids : legal dep k s (.findAllUnfinished limit) (.ok ids)) (hrows : (s.rows.map rowId).Nodup)
    (hq : (s.procs k.replica).queue.length ≤ dep.config.dispatcher.queueCapacity)
    (hnew : ∀ job ∈ (s.procs k.replica).queue, job.enqueuedBy ≠ t) {h : List Ev} {n : ℕ}
    (hx : Exec (S := system dep) (Undisturbed k.replica) t k (requeue ids) s h (.ret n) s') :
    LosesNothing t s.rows (s'.procs k.replica).queue n ↔ (unfinishedRows s.rows).length ≤ limit ∧
      (unfinishedRows s.rows).length ≤ room dep.config.dispatcher (s.procs k.replica).queue := by
  obtain ⟨s₁, hR, hn, hqueue⟩ := Exec.must (S := system dep) (R := Undisturbed k.replica) (fun _ => rfl)
    (fun _ _ _ => Undisturbed.trans) hx (fun _ _ => trivial) (must_requeue ids)
  obtain rfl : n = ids.length := Except.ok.inj hn
  rw [hR, hqueue]
  have hnone : jobsBy t (s.procs k.replica).queue = [] :=
    List.filter_eq_nil_iff.mpr fun job hm => by simpa using hnew job hm
  have hjobs : ∀ job ∈ ids.map (jobOf t), job.enqueuedBy = t := by simp
  have hlen := length_jobsBy hq hnone hjobs
  have hids' := findAllUnfinished_length hids
  rw [List.length_map] at hlen
  constructor
  · rintro ⟨-, hall⟩
    -- The jobs of the unfinished rows are different ones, all of them among the call's.
    have hdistinct : ((unfinishedRows s.rows).map fun row => jobOf t row.requestId).Nodup := by
      have hsub : ((unfinishedRows s.rows).map rowId).Nodup := hrows.sublist (List.filter_sublist.map _)
      have hmap := hsub.map (f := jobOf t) fun a b hab => congrArg CandidateJob.requestId hab
      rwa [List.map_map] at hmap
    have hle := (List.subperm_of_subset hdistinct fun job hm => by
      obtain ⟨row, hrow, rfl⟩ := List.mem_map.mp hm
      exact hall row hrow).length_le
    rw [List.length_map] at hle
    omega
  · rintro ⟨hlimit, hroom⟩
    have hall := jobsBy_of_room hq hnone hjobs (by rw [List.length_map]; omega)
    refine ⟨by rw [hall, List.length_map], fun row hrow => ?_⟩
    rw [hall]
    exact List.mem_map_of_mem (mem_findAllUnfinished hids hlimit hrow)

end Run

def unfinishedRecord (requestId : Str) : PendingComparison :=
  pendingRecord ((demoChat requestId "hi").persistArgs disk.requestHash morning demoRoute)
    { status := .ok, latencyMs := 0 }
    none none

def twoUnfinished : State :=
  { State.initial morning with rows := [newRow (unfinishedRecord "a"), newRow (unfinishedRecord "b")] }

def narrow : Deployment :=
  installed
    { demoConfig with
      dispatcher := { demoConfig.dispatcher with queueCapacity := 1, queueCapacity_pos := Nat.le_refl 1 } }
    none (by decide)

def starting : Kind := ⟨0, .startup⟩

lemma twoUnfinished_ids :
    legal narrow starting twoUnfinished (.findAllUnfinished 10000) (.ok ["a".toList, "b".toList]) :=
  ⟨twoUnfinished.rows, List.Perm.refl _, by decide, rfl⟩

lemma narrow_requeues :
    ∃ h s', Exec (S := system narrow) (Undisturbed 0) 0 starting (requeue ["a".toList, "b".toList])
    twoUnfinished h (.ret 2) s' ∧ jobsBy 0 (s'.procs 0).queue = [jobOf 0 "a"] := by
  obtain ⟨h, n, s', hx, hP⟩ := (driver narrow).exists_exec (t := 0) (k := starting) (Undisturbed 0)
    (requeue ["a".toList, "b".toList]) twoUnfinished [timesOut, timesOut]
    (fun _ n s' => n = 2 && jobsBy 0 (s'.procs 0).queue = [jobOf 0 "a"]) (by decide +kernel)
  simp only [Bool.and_eq_true, decide_eq_true_eq] at hP
  obtain ⟨rfl, hqueue⟩ := hP
  exact ⟨h, s', hx, hqueue⟩

theorem requeue_loses_second :
    legal narrow starting twoUnfinished (.findAllUnfinished 10000) (.ok ["a".toList, "b".toList]) ∧
      ∃ h s', Exec (S := system narrow) (Undisturbed 0) 0 starting (requeue ["a".toList, "b".toList])
      twoUnfinished h (.ret 2) s' ∧
        ¬ LosesNothing 0 twoUnfinished.rows (s'.procs 0).queue 2 := by
  obtain ⟨h, s', hx, hqueue⟩ := narrow_requeues
  refine ⟨twoUnfinished_ids, h, s', hx, fun hall => ?_⟩
  have hcount := hall.count
  rw [hqueue] at hcount
  cases hcount

theorem requeue_losesNothing_iff_narrow : ∃ h s', Exec (S := system narrow) (Undisturbed 0) 0 starting
    (requeue ["a".toList, "b".toList]) twoUnfinished h (.ret 2) s' ∧
      (LosesNothing 0 twoUnfinished.rows (s'.procs 0).queue 2 ↔
        (unfinishedRows twoUnfinished.rows).length ≤ 10000 ∧
        (unfinishedRows twoUnfinished.rows).length ≤
        room narrow.config.dispatcher (twoUnfinished.procs 0).queue) := by
  obtain ⟨h, s', hx, -⟩ := narrow_requeues
  exact ⟨h, s', hx, requeue_losesNothing_iff twoUnfinished_ids (by decide) (by decide)
    (by simp [twoUnfinished, State.initial]) hx⟩

end ShadowProxy
