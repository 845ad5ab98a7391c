import ShadowProxy.Settings

/-! The bounded queue between the request path and the workers. -/

namespace ShadowProxy

/-- `enqueuedBy` names the thread that queued the job. The source's job is the id alone; nothing
reads the other field. -/
structure CandidateJob where
  requestId : Str
  enqueuedBy : ℕ
  deriving DecidableEq

inductive DispatchStatus where
  | enqueued
  | dropped
  deriving DecidableEq

def DispatchStatus.isEnqueued : DispatchStatus → Bool
  | .enqueued => true
  | .dropped => false

def InProcessDispatcher.enqueue (cfg : DispatcherConfig) (queue : List CandidateJob) (job : CandidateJob) :
    List CandidateJob × DispatchStatus :=
  if queue.length < cfg.queueCapacity then (queue ++ [job], .enqueued)
  else match cfg.overflowPolicy, queue with
    | .dropOld, _ :: rest => (rest ++ [job], .enqueued)
    | _, _ => (queue, .dropped)

lemma InProcessDispatcher.enqueue_nil (cfg : DispatcherConfig) (job : CandidateJob) :
    (enqueue cfg [] job).1 = [job] := by
  have hcap : ([] : List CandidateJob).length < cfg.queueCapacity := cfg.queueCapacity_pos
  unfold enqueue
  rw [if_pos hcap]
  rfl

lemma InProcessDispatcher.enqueue_status (cfg : DispatcherConfig) (queue : List CandidateJob)
    (job job' : CandidateJob) : (enqueue cfg queue job).2 = (enqueue cfg queue job').2 := by
  unfold enqueue
  split
  · rfl
  · split <;> rfl

lemma InProcessDispatcher.enqueue_dropped {cfg : DispatcherConfig} {queue : List CandidateJob} {job : CandidateJob}
    (h : (enqueue cfg queue job).2 = .dropped) : (enqueue cfg queue job).1 = queue := by
  unfold enqueue at h ⊢
  split at h
  · cases h
  · rename_i hfull
    rw [if_neg hfull]
    split at h
    · cases h
    · rfl

lemma InProcessDispatcher.enqueue_enqueued {cfg : DispatcherConfig} {queue : List CandidateJob}
    {job : CandidateJob} (h : (enqueue cfg queue job).2 = .enqueued) :
    ∃ q, q.Sublist queue ∧ (enqueue cfg queue job).1 = q ++ [job] := by
  unfold enqueue at h ⊢
  split at h
  · rename_i hroom
    rw [if_pos hroom]
    exact ⟨queue, List.Sublist.refl _, rfl⟩
  · rename_i hfull
    rw [if_neg hfull]
    split at h
    · rename_i rest _
      exact ⟨rest, List.sublist_cons_self _ _, rfl⟩
    · cases h

end ShadowProxy
