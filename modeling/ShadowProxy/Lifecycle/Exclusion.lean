import ShadowProxy.Scenario

/-! Who may work on a request when several replicas share one store. -/

namespace ShadowProxy

open Effects SqlComparisonStore

variable {dep : Deployment} {clock : DateTime} {w w' : ProxyWorld dep} {L : List (ProxyLabel dep)}
  {l : ProxyLabel dep} {t t' : ℕ} {r : Str}

def Handles (w : ProxyWorld dep) (t : ℕ) (r : Str) : Prop :=
  ∃ x job p, w.threads t = some ⟨⟨x, .handle job⟩, p⟩ ∧ job.requestId = r

def Between (L : List (ProxyLabel dep)) (w : ProxyWorld dep) (t : ℕ) (r : Str) : Prop :=
  Handles w t r ∧ Acted L t (.markInProgress r) (.ok ()) ∧ ∀ patch, ¬ Acted L t (.finalize r patch) (.ok ())

def Calling (w : ProxyWorld dep) (t : ℕ) (r : Str) : Prop :=
  ∃ x job req timeoutS f, w.threads t = some ⟨⟨x, .handle job⟩, .op (.chatCompletions .candidate req timeoutS) f⟩ ∧
    job.requestId = r

def HandlerFinalized (L : List (ProxyLabel dep)) (t : ℕ) (r : Str) : Prop :=
  (∃ job, Started L t (.handle job) ∧ job.requestId = r) ∧ ∃ patch, Acted L t (.finalize r patch) (.ok ())

def claims (w : ProxyWorld dep) (x : ℕ) (r : Str) : List CandidateJob :=
  (w.state.procs x).queue.filter fun job => job.requestId = r

def Eligible (s : State) (r : Str) : Prop := ∃ row, s.row r = some row ∧ row.primaryStatus = .ok

/-- An id whose row is to be shadowed is queued only while no queue holds it, no handler works on it and
none has finalized it. -/
def Unclaimed (L : List (ProxyLabel dep)) (w : ProxyWorld dep) (l : ProxyLabel dep) : Prop :=
  ∀ t r, l = .act t ⟨.enqueue r, .ok .enqueued⟩ → Eligible w.state r →
    (∀ x, claims w x r = []) ∧ (∀ t', ¬ Handles w t' r) ∧ ∀ t', ¬ HandlerFinalized L t' r

lemma Calling.handles (hc : Calling w t r) : Handles w t r := by
  obtain ⟨x, job, req, timeoutS, f, ht, hr⟩ := hc
  exact ⟨x, job, _, ht, hr⟩

lemma handles_step (hs : Step w l w') (hh : Handles w' t r) :
    Handles w t r ∨ ∃ x job, l = .spawn t ⟨x, .handle job⟩ ∧ job.requestId = r := by
  obtain ⟨x, job, p, ht, hr⟩ := hh
  rcases hs.thread_before ht with ⟨q, hq⟩ | ⟨hl, -⟩
  · exact .inl ⟨x, job, q, hq, hr⟩
  · exact .inr ⟨x, job, hl, hr⟩

lemma Handles.started (h : Run (start dep clock) L w) (hh : Handles w t r) :
    ∃ job, Started L t (.handle job) ∧ job.requestId = r := by
  obtain ⟨x, job, p, ht, hr⟩ := hh
  exact ⟨job, ⟨x, ((h.tracked fun _ => rfl).live t _ ht).1⟩, hr⟩

lemma eligible_step (hs : Step w l w') (he : Eligible w'.state r) :
    Eligible w.state r ∨ ∃ t record, l = .act t ⟨.insertPending record, .ok ()⟩ ∧ record.requestId = r := by
  obtain ⟨row, hrow, hp⟩ := he
  have hstep := rowStep hs r
  rw [hrow] at hstep
  generalize ha : some row = after at hstep
  cases hstep with
  | same => exact .inl ⟨row, ha.symm, hp⟩
  | @insert t record hid => exact .inr ⟨t, record, rfl, hid⟩
  | mark | finalize =>
    obtain ⟨row₀, hr₀, rfl⟩ := Option.map_eq_some_iff.mp ha.symm
    exact .inl ⟨row₀, hr₀, hp⟩

lemma eligible_of_shadowed (h : Run (start dep clock) L w) {record : ComparisonRow}
    (hs : CandidateHandler.Shadowed (history t L) r record) : Eligible w.state r := by
  obtain ⟨row, hrow, hp⟩ := Run.get_row h (did_history.mp hs.1)
  exact ⟨row, hrow, (congrArg PendingComparison.primaryStatus hp).trans hs.2⟩

lemma Calling.eligible (h : Run (start dep clock) L w) (hc : Calling w t r) : Eligible w.state r := by
  obtain ⟨x, job, req, timeoutS, f, ht, rfl⟩ := hc
  obtain ⟨-, hf⟩ := (h.tracked fun _ => rfl).live t _ ht
  obtain ⟨-, -, record, body, hs, -⟩ := hf.issued (CandidateHandler.issues_call dep job)
  exact eligible_of_shadowed h hs

lemma marked_eligible (h : Run (start dep clock) L w) {res : Except Exn Unit}
    (ha : Acted L t (.markInProgress r) res) : Eligible w.state r := by
  obtain ⟨task, L₁, -, hL, hspec⟩ := Run.acted_issued h ha
  cases task with
  | handle job =>
    obtain ⟨rfl, record, hf, hp⟩ := hspec
    exact eligible_of_shadowed h ⟨hf.mono <| history_prefix t hL, hp⟩
  | _ => exact hspec.elim

lemma enqueued_after (h : Run (start dep clock) L w) {res : Except Exn DispatchStatus}
    (ha : Acted L t (.enqueue r) res) :
    (∃ row, w.state.row r = some row) ∨ ∃ c, Started L t (.chat c) ∧ c.requestId = r ∧
      ∃ record res, Acted L t (.insertPending record) res := by
  induction h with
  | nil => cases ha
  | @snoc L w l w' hr _ hs ih =>
    rcases acted_snoc.mp ha with ha | rfl
    · rcases ih ha with ⟨row, hrow⟩ | ⟨c, hc, hid, record, res, hi⟩
      · obtain ⟨row', hrow', -⟩ := row_persists hs hrow
        exact .inl ⟨row', hrow'⟩
      · exact .inr ⟨c, hc.mono (by simp), hid, record, res, hi.snoc l⟩
    · obtain ⟨task, hst, hspec⟩ := Run.issued hr hs
      cases task with
      | chat c =>
        obtain ⟨rfl, ⟨record, res, hi⟩, -⟩ := hspec
        exact .inr ⟨c, hst.mono (by simp), rfl, record, res, (did_history.mp hi).snoc _⟩
      | startup =>
        obtain ⟨limit, ids, hd, hmem⟩ := hspec
        obtain ⟨row, hrow⟩ := Run.found_row hr (did_history.mp hd) hmem
        obtain ⟨row', hrow', -⟩ := row_persists hs hrow
        exact .inl ⟨row', hrow'⟩
      | _ => exact hspec.elim

lemma not_enqueued_of_insert (h : Run (start dep clock) L w) (hn : (chatIds L).Nodup) {record : PendingComparison}
    (hs : Step w (.act t ⟨.insertPending record, .ok ()⟩) w') {res : Except Exn DispatchStatus} :
    ¬ Acted L t' (.enqueue record.requestId) res := by
  intro ha
  rcases enqueued_after h ha with ⟨row, hrow⟩ | ⟨c, hc, hid, record', res', hi⟩
  · cases hs with
    | act ht hl =>
      have hnone : w.state.row record.requestId = none := hl
      simp [hrow] at hnone
  · obtain ⟨task, hst, hspec⟩ := Run.issued h hs
    cases task with
    | chat c' =>
      obtain ⟨hfirst, routeCfg, receivedAt, outcome, key, action, -, -, rfl⟩ := hspec
      obtain rfl := chat_unique hn hc hst hid
      exact hfirst _ (did_history.mpr hi) _ rfl
    | _ => exact hspec.elim

structure Owned (L : List (ProxyLabel dep)) (w : ProxyWorld dep) (r : Str) : Prop where
  once : ∀ x, (claims w x r).length ≤ 1
  apart : ∀ x y, claims w x r ≠ [] → claims w y r ≠ [] → x = y
  idle : ∀ x, claims w x r ≠ [] → (∀ t, ¬ Handles w t r) ∧ ∀ t, ¬ HandlerFinalized L t r
  single : ∀ t t', Handles w t r → Handles w t' r → t = t'
  finalized : ∀ t t', Handles w t r → HandlerFinalized L t' r → t' = t

lemma Owned.of_unqueued (hq : ∀ x, claims w x r = []) (hh : ∀ t t', Handles w t r → Handles w t' r → t = t')
    (hf : ∀ t t', Handles w t r → HandlerFinalized L t' r → t' = t) : Owned L w r where
  once x := by simp [hq x]
  apart x _ hx := absurd (hq x) hx
  idle x hx := absurd (hq x) hx
  single := hh
  finalized := hf

lemma Owned.shrink {L' : List (ProxyLabel dep)} (ho : Owned L w r)
    (hq : ∀ x, (claims w' x r).Sublist (claims w x r)) (hh : ∀ t, Handles w' t r → Handles w t r)
    (hf : ∀ t, HandlerFinalized L' t r → HandlerFinalized L t r ∨ Handles w t r) : Owned L' w' r := by
  have hne : ∀ x, claims w' x r ≠ [] → claims w x r ≠ [] := by
    intro x hx he
    have hs := hq x
    rw [he] at hs
    exact hx (List.sublist_nil.mp hs)
  constructor
  · exact fun x => (hq x).length_le.trans (ho.once x)
  · exact fun x y hx hy => ho.apart x y (hne x hx) (hne y hy)
  · intro x hx
    obtain ⟨h₁, h₂⟩ := ho.idle x (hne x hx)
    exact ⟨fun t ht => h₁ t (hh t ht), fun t ht => (hf t ht).elim (h₂ t) (h₁ t)⟩
  · exact fun t t' ht ht' => ho.single t t' (hh t ht) (hh t' ht')
  · intro t t' ht ht'
    rcases hf t' ht' with hf' | hf'
    · exact ho.finalized t t' (hh t ht) hf'
    · exact ho.single t' t hf' (hh t ht)

lemma claims_step (hs : Step w l w') (hl : ∀ t, l ≠ .act t ⟨.enqueue r, .ok .enqueued⟩) (x : ℕ) :
    (claims w' x r).Sublist (claims w x r) := by
  cases queuesStep hs with
  | shrink l y hother hself =>
    by_cases hx : x = y
    · exact hx ▸ hself.filter _
    · rw [claims, claims, hother x hx]
  | @push y t r' q hother hq hself =>
    by_cases hx : x = y
    · subst hx
      have hr : r' ≠ r := fun hr => hl t (by rw [hr])
      have hlast : ([⟨r', t⟩] : List CandidateJob).filter (fun job => job.requestId = r) = [] := by simp [hr]
      rw [claims, hself, List.filter_append, hlast, List.append_nil]
      exact hq.filter _
    · rw [claims, claims, hother x hx]

lemma handlerFinalized_step (h : Run (start dep clock) L w) (hs : Step w l w')
    (hf : HandlerFinalized (L ++ [l]) t r) : HandlerFinalized L t r ∨ Handles w t r := by
  obtain ⟨⟨job, ⟨x, hx⟩, hr⟩, patch, ha⟩ := hf
  have htr := h.tracked fun _ => rfl
  rcases List.mem_append.mp hx with hold | hnew
  · rcases acted_snoc.mp ha with ha | rfl
    · exact .inl ⟨⟨job, ⟨x, hold⟩, hr⟩, patch, ha⟩
    · cases hs with
      | act ht hl =>
        obtain rfl := htr.unique t _ _ hold (htr.live t _ ht).1
        exact .inr ⟨x, job, _, ht, hr⟩
  · obtain rfl := List.mem_singleton.mp hnew
    cases hs with
    | spawn hle hc =>
      have hacts := did_history.mpr ((acted_snoc.mp ha).resolve_right (by simp))
      simp [Did, (htr.fresh t hle).2.1] at hacts

lemma owned_take {x : ℕ} {job : CandidateJob} (h : Run (start dep clock) L w) (ho : Owned L w job.requestId)
    (hs : Step w (.spawn t ⟨x, .handle job⟩) w') : Owned (L ++ [.spawn t ⟨x, .handle job⟩]) w' job.requestId := by
  have hx : claims w x job.requestId = job :: claims w' x job.requestId := by
    rw [claims, handle_takes hs, List.filter_cons_of_pos (by simp), claims]
  have hne : claims w x job.requestId ≠ [] := by simp [hx]
  obtain ⟨hidle, hfin⟩ := ho.idle x hne
  have hone : ∀ u, Handles w' u job.requestId → u = t := by
    intro u hu
    rcases handles_step hs hu with hu | ⟨y, j, hl, -⟩
    · exact absurd hu (hidle u)
    · simp only [Label.spawn.injEq] at hl
      exact hl.1.symm
  apply Owned.of_unqueued
  · intro y
    by_contra hy
    have hsub := claims_step (r := job.requestId) hs (by simp) y
    obtain rfl := ho.apart y x (fun he => hy (List.sublist_nil.mp (he ▸ hsub))) hne
    have hlen := ho.once y
    rw [hx, List.length_cons] at hlen
    exact hy (List.length_eq_zero_iff.mp (by omega))
  · intro u u' hu hu'
    rw [hone u hu, hone u' hu']
  · intro u u' hu hu'
    rcases handlerFinalized_step h hs hu' with hf | hf
    · exact absurd hf (hfin u')
    · exact absurd hf (hidle u')

lemma owned_push (h : Run (start dep clock) L w) (hc : Unclaimed L w (.act t ⟨.enqueue r, .ok .enqueued⟩))
    (he : Eligible w.state r) (hs : Step w (.act t ⟨.enqueue r, .ok .enqueued⟩) w') :
    Owned (L ++ [.act t ⟨.enqueue r, .ok .enqueued⟩]) w' r := by
  obtain ⟨hq, hh, hf⟩ := hc t r rfl he
  have hh' : ∀ u, ¬ Handles w' u r := fun u hu => by
    rcases handles_step hs hu with hu | ⟨y, j, hl, -⟩
    · exact hh u hu
    · cases hl
  have hf' : ∀ u, ¬ HandlerFinalized (L ++ [.act t ⟨.enqueue r, .ok .enqueued⟩]) u r := fun u hu => by
    rcases handlerFinalized_step h hs hu with hu | hu
    · exact hf u hu
    · exact hh u hu
  have hx : ∃ x, (∀ y, y ≠ x → claims w' y r = []) ∧ (claims w' x r).length ≤ 1 := by
    cases queuesStep hs with
    | shrink l y hother hself =>
      refine ⟨y, fun z hz => ?_, ?_⟩
      · rw [claims, hother z hz]
        exact hq z
      · have hsub := hself.filter fun job => decide (job.requestId = r)
        have hlen := hsub.length_le
        have hnil := congrArg List.length (hq y)
        simp only [claims, List.length_nil] at hnil ⊢
        omega
    | @push y _ _ q hother hsub hself =>
      refine ⟨y, fun z hz => ?_, ?_⟩
      · rw [claims, hother z hz]
        exact hq z
      · have hnil : q.filter (fun job => decide (job.requestId = r)) = [] :=
          List.sublist_nil.mp (hq y ▸ hsub.filter _)
        simp [claims, hself, hnil]
  obtain ⟨x, hother, hlen⟩ := hx
  have hat : ∀ y, claims w' y r ≠ [] → y = x := fun y hy => by_contra fun hne => hy (hother y hne)
  constructor
  · intro y
    by_cases hy : y = x
    · exact hy ▸ hlen
    · simp [hother y hy]
  · exact fun y z hy hz => (hat y hy).trans (hat z hz).symm
  · exact fun _ _ => ⟨hh', hf'⟩
  · exact fun u _ hu => absurd hu (hh' u)
  · exact fun u _ hu => absurd hu (hh' u)

lemma owned_step (h : RunWhere Unclaimed (start dep clock) L w) (hn : (chatIds L).Nodup) (hc : Unclaimed L w l)
    (hs : Step w l w') (ho : Eligible w.state r → Owned L w r) (he' : Eligible w'.state r) :
    Owned (L ++ [l]) w' r := by
  rcases eligible_step hs he' with he | ⟨t, record, rfl, rfl⟩
  · by_cases hpush : ∃ t, l = .act t ⟨.enqueue r, .ok .enqueued⟩
    · obtain ⟨t, rfl⟩ := hpush
      exact owned_push h.run hc he hs
    by_cases htake : ∃ t x job, l = .spawn t ⟨x, .handle job⟩ ∧ job.requestId = r
    · obtain ⟨t, x, job, rfl, rfl⟩ := htake
      exact owned_take h.run (ho he) hs
    apply (ho he).shrink
    · exact claims_step hs fun t hl => hpush ⟨t, hl⟩
    · exact fun t ht => (handles_step hs ht).resolve_right fun ⟨x, job, hl, hr⟩ => htake ⟨t, x, job, hl, hr⟩
    · exact fun t ht => handlerFinalized_step h.run hs ht
  · have hfresh : ∀ t' res, ¬ Acted (L ++ [.act t ⟨.insertPending record, .ok ()⟩]) t'
        (.enqueue record.requestId) res := by
      intro t' res ha
      exact not_enqueued_of_insert h.run hn hs ((acted_snoc.mp ha).resolve_right (by simp))
    have hr := h.run.snoc hs
    obtain ⟨hqueued, hhandled⟩ := Run.job_enqueued hr
    have hh : ∀ t', ¬ Handles w' t' record.requestId := by
      intro t' ht
      obtain ⟨job, hst, hid⟩ := ht.started hr
      obtain ⟨res, ha⟩ := hhandled t' job hst
      exact hfresh _ res (hid ▸ ha)
    apply Owned.of_unqueued
    · intro x
      refine List.filter_eq_nil_iff.mpr fun job hj hid => ?_
      obtain ⟨res, ha⟩ := hqueued x job hj
      exact hfresh _ res (of_decide_eq_true hid ▸ ha)
    · exact fun t' _ ht => absurd ht (hh t')
    · exact fun t' _ ht => absurd ht (hh t')

lemma owned (h : RunWhere Unclaimed (start dep clock) L w) (hn : (chatIds L).Nodup) (he : Eligible w.state r) :
    Owned L w r := by
  induction h with
  | nil =>
    obtain ⟨row, hrow, -⟩ := he
    cases hrow
  | @snoc L w l w' hr hc hs ih =>
    have hn' : (chatIds L).Nodup := hn.sublist ((List.sublist_append_left L [l]).filterMap _)
    exact owned_step hr hn' hc hs (ih hn') he

theorem request_exclusive (h : RunWhere Unclaimed (start dep clock) L w) (hn : (chatIds L).Nodup) :
    (∀ t t' r, Between L w t r → Between L w t' r → t = t') ∧
      ∀ t t' r, Calling w t r → HandlerFinalized L t' r → t' = t := by
  constructor
  · intro t t' r hb hb'
    have ho := owned h hn (marked_eligible h.run hb.2.1)
    exact ho.single t t' hb.1 hb'.1
  · intro t t' r hc hf
    have ho := owned h hn (hc.eligible h.run)
    exact ho.finalized t t' hc.handles hf

section Computed

def handles (w : ProxyWorld dep) (t : ℕ) (r : Str) : Bool :=
  match w.threads t with
  | some ⟨⟨_, .handle job⟩, _⟩ => job.requestId = r
  | _ => false

def calling (w : ProxyWorld dep) (t : ℕ) (r : Str) : Bool :=
  match w.threads t with
  | some ⟨⟨_, .handle job⟩, .op (.chatCompletions .candidate _ _) _⟩ => job.requestId = r
  | _ => false

def marks (r : Str) : Ev → Bool
  | ⟨.markInProgress id, .ok ()⟩ => id = r
  | _ => false

def finalizes (r : Str) : Ev → Bool
  | ⟨.finalize id _, .ok ()⟩ => id = r
  | _ => false

def enqueues (r : Str) : ProxyLabel dep → Bool
  | .act _ ⟨.enqueue id, _⟩ => id = r
  | _ => false

lemma handles_sound (h : handles w t r = true) : Handles w t r := by
  rw [handles] at h
  split at h
  · rename_i x job p ht
    exact ⟨x, job, p, ht, of_decide_eq_true h⟩
  · cases h

lemma calling_sound (h : calling w t r = true) : Calling w t r := by
  rw [calling] at h
  split at h
  · rename_i x job req timeoutS f ht
    exact ⟨x, job, req, timeoutS, f, ht, of_decide_eq_true h⟩
  · cases h

lemma acted_marks (h : L.any (acted t (marks r)) = true) : Acted L t (.markInProgress r) (.ok ()) := by
  obtain ⟨e, he, hP⟩ := any_acted.mp h
  unfold marks at hP
  split at hP
  · exact of_decide_eq_true hP ▸ he
  · cases hP

lemma acted_finalizes :
    L.any (acted t (finalizes r)) = true ↔ ∃ patch, Acted L t (.finalize r patch) (.ok ()) := by
  rw [any_acted]
  constructor
  · rintro ⟨e, he, hP⟩
    unfold finalizes at hP
    split at hP
    · exact ⟨_, of_decide_eq_true hP ▸ he⟩
    · cases hP
  · rintro ⟨patch, ha⟩
    exact ⟨_, ha, by simp [finalizes]⟩

def between (L : List (ProxyLabel dep)) (w : ProxyWorld dep) (t : ℕ) (r : Str) : Bool :=
  handles w t r && L.any (acted t (marks r)) && !L.any (acted t (finalizes r))

lemma between_sound (h : between L w t r = true) : Between L w t r := by
  simp only [between, Bool.and_eq_true, Bool.not_eq_true'] at h
  obtain ⟨⟨hh, hm⟩, hf⟩ := h
  refine ⟨handles_sound hh, acted_marks hm, fun patch ha => ?_⟩
  have hany := acted_finalizes.mpr ⟨patch, ha⟩
  rw [hf] at hany
  cases hany

def firstEnqueue (L : List (ProxyLabel dep)) (_ : ProxyWorld dep) : ProxyLabel dep → Bool
  | .act _ ⟨.enqueue r, _⟩ => !L.any (enqueues r)
  | _ => true

lemma firstEnqueue_unclaimed (h : Run (start dep clock) L w) (hf : firstEnqueue L w l = true) :
    Unclaimed L w l := by
  rintro t r rfl -
  have hnew : ∀ t' res, ¬ Acted L t' (.enqueue r) res := by
    intro t' res ha
    have hany : L.any (enqueues r) = true := List.any_eq_true.mpr ⟨_, ha, by simp [enqueues]⟩
    simp [firstEnqueue, hany] at hf
  obtain ⟨hqueued, hhandled⟩ := Run.job_enqueued h
  have hh : ∀ t', ¬ ∃ job, Started L t' (.handle job) ∧ job.requestId = r := by
    rintro t' ⟨job, hst, hid⟩
    obtain ⟨res, ha⟩ := hhandled t' job hst
    exact hnew _ res (hid ▸ ha)
  refine ⟨fun x => List.filter_eq_nil_iff.mpr fun job hj hid => ?_, fun t' ht => hh t' (ht.started h),
    fun t' hf => hh t' hf.1⟩
  obtain ⟨res, ha⟩ := hqueued x job hj
  exact hnew _ res (of_decide_eq_true hid ▸ ha)

theorem request_exclusive_one_handler :
    ∃ (L : List (ProxyLabel (demo none))) (w : ProxyWorld (demo none)),
      RunWhere Unclaimed (start (demo none) morning) L w ∧ (chatIds L).Nodup ∧ Between L w 2 "a" ∧
      ((∀ t t' r, Between L w t r → Between L w t' r → t = t') ∧
        ∀ t t' r, Calling w t r → HandlerFinalized L t' r → t' = t) := by
  obtain ⟨L, w, hr, hP⟩ := (driver (demo none)).exists_run (C := fun L w l => firstEnqueue L w l = true)
    (c := firstEnqueue) id (start (demo none) morning)
    (boot 0 ++ begin 1 (.chat (demoChat "a" "hi")) ++ acts 11 1 (replies "nope") ++ begin 2 (.handle ⟨"a", 1⟩) ++
      acts 2 2 (replies "nope"))
    (fun L w => (chatIds L).Nodup && between L w 2 "a") (by decide +kernel)
  simp only [Bool.and_eq_true, decide_eq_true_eq] at hP
  have hu : RunWhere Unclaimed (start (demo none) morning) L w :=
    hr.mono fun _ _ _ _ h hf _ => firstEnqueue_unclaimed h.run hf
  exact ⟨L, w, hu, hP.1, between_sound hP.2, request_exclusive hu hP.1⟩

def scaleOut : List (DemoCommand none) × List (DemoCommand none) :=
  (boot 0 ++ begin 1 (.chat (demoChat "a" "hi")) ++ acts 11 1 (replies "nope") ++ begin 2 (.handle ⟨"a", 1⟩) ++
    acts 2 2 (replies "nope") ++ [.spawn 3 ⟨1, .startup⟩] ++ acts 2 3 (replies "nope") ++
    [.spawn 4 ⟨1, .handle ⟨"a", 3⟩⟩] ++ acts 2 4 (replies "nope"),
    acts 5 2 (replies "nope") ++ acts 1 4 (replies "nope"))

theorem request_shared :
    ∃ (L₁ L₂ : List (ProxyLabel (demo none))) (w₁ w₂ : ProxyWorld (demo none)),
      Run (start (demo none) morning) L₁ w₁ ∧ Run (start (demo none) morning) (L₁ ++ L₂) w₂ ∧
      (chatIds (L₁ ++ L₂)).Nodup ∧ Between L₁ w₁ 2 "a" ∧ Between L₁ w₁ 4 "a" ∧
      Calling w₂ 4 "a" ∧ HandlerFinalized (L₁ ++ L₂) 2 "a" := by
  obtain ⟨L₁, w₁, L₂, w₂, h₁, h₂, hP⟩ := (driver (demo none)).exists_runs (C := fun _ _ _ => True)
    (c := fun _ _ _ => true) (fun _ => trivial) (start (demo none) morning) scaleOut.1 scaleOut.2
    (fun L₁ w₁ L w₂ => (chatIds L).Nodup && between L₁ w₁ 2 "a" && between L₁ w₁ 4 "a" && calling w₂ 4 "a" &&
      L.any (spawned 2 (isHandle "a")) && L.any (acted 2 (finalizes "a"))) (by decide +kernel)
  simp only [Bool.and_eq_true, decide_eq_true_eq] at hP
  obtain ⟨⟨⟨⟨⟨hn, hb⟩, hb'⟩, hc⟩, hst⟩, hf⟩ := hP
  exact ⟨L₁, L₂, w₁, w₂, h₁, h₂, hn, between_sound hb, between_sound hb', calling_sound hc, started_handle.mp hst,
    acted_finalizes.mp hf⟩

end Computed

end ShadowProxy
