import Mathlib.Data.List.Pairwise
import ShadowProxy.HandlerSpec

/-! Runs of the proxy: what one step can do to a row, and what the rows and the reads of a run have
to do with each other. -/

namespace ShadowProxy

open Effects Data SqlComparisonStore

variable {dep : Deployment}

abbrev ProxyWorld (dep : Deployment) := World (system dep)

abbrev ProxyLabel (dep : Deployment) := Label (system dep)

def start (dep : Deployment) (clock : DateTime) : ProxyWorld dep := World.idle (State.initial clock)

def Task.Spec (dep : Deployment) : Task → List Ev → Op → Prop
  | .chat c => chatSpec dep c
  | .handle job => CandidateHandler.Spec dep job.requestId
  | .sweep => Sweeper.Spec dep
  | .startup => startupSpec

lemma issues_taskProgram (dep : Deployment) (task : Task) : Issues (task.Spec dep) (taskProgram dep task) := by
  cases task with
  | chat c => exact issues_chat dep c
  | handle job => exact CandidateHandler.issues_call dep job
  | sweep => exact Sweeper.issues_runOnce dep
  | startup => exact issues_startup dep

def Started (L : List (ProxyLabel dep)) (t : ℕ) (task : Task) : Prop :=
  ∃ x, Label.spawn (S := system dep) t ⟨x, task⟩ ∈ L

def Acted (L : List (ProxyLabel dep)) (t : ℕ) (o : Op) (r : Except Exn o.Ret) : Prop :=
  Label.act (S := system dep) t ⟨o, r⟩ ∈ L

lemma did_history {t : ℕ} {L : List (ProxyLabel dep)} {o : Op} {r : Except Exn o.Ret} :
    Did (history t L) o r ↔ Acted L t o r :=
  mem_history (S := system dep)

lemma Acted.snoc {t : ℕ} {L : List (ProxyLabel dep)} {o : Op} {r : Except Exn o.Ret} (h : Acted L t o r)
    (l : ProxyLabel dep) : Acted (L ++ [l]) t o r :=
  List.mem_append_left _ h

lemma acted_snoc {t : ℕ} {L : List (ProxyLabel dep)} {o : Op} {r : Except Exn o.Ret} {l : ProxyLabel dep} :
    Acted (L ++ [l]) t o r ↔ Acted L t o r ∨ l = .act t ⟨o, r⟩ := by
  simp [Acted, eq_comm]

inductive RowStep (s : State) (r : Str) : ProxyLabel dep → Option ComparisonRow → Prop
  | same (l : ProxyLabel dep) : RowStep s r l (s.row r)
  | insert {t : ℕ} {record : PendingComparison} : record.requestId = r → s.row r = none →
      RowStep s r (.act t ⟨.insertPending record, .ok ()⟩) (some (newRow record))
  | mark {t : ℕ} : RowStep s r (.act t ⟨.markInProgress r, .ok ()⟩) ((s.row r).map (markedInProgress s.clock))
  | finalize {t : ℕ} {patch : FinalizePatch} :
      RowStep s r (.act t ⟨.finalize r patch, .ok ()⟩) ((s.row r).map (finalized s.clock patch))

lemma row_insertPending {s : State} {record : PendingComparison} (hn : s.row record.requestId = none) (r : Str) :
    lookup r (insertPending record s.rows) = if record.requestId = r then some (newRow record) else s.row r := by
  have ha : lookup r (insertPending record s.rows) =
      (s.row r).or (if record.requestId = r then some (newRow record) else none) :=
    Table.lookup_append r s.rows (newRow record)
  rw [ha]
  by_cases h : record.requestId = r
  · subst h
    rw [hn, Option.none_or, if_pos rfl]
  · rw [if_neg h, if_neg h, Option.or_none]

lemma row_markInProgress (s : State) (id r : Str) :
    lookup r (markInProgress s.clock id s.rows) =
      if id = r then (s.row r).map (markedInProgress s.clock) else s.row r :=
  lookup_markInProgress s.clock id r s.rows

lemma row_finalize (s : State) (id r : Str) (patch : FinalizePatch) :
    lookup r (finalize s.clock id patch s.rows) =
      if id = r then (s.row r).map (finalized s.clock patch) else s.row r :=
  lookup_finalize s.clock id r patch s.rows

lemma rowStep_after {s : State} {k : Kind} {t : ℕ} {o : Op} {res : Except Exn o.Ret} (hl : legal dep k s o res)
    (r : Str) : RowStep s r (Label.act (S := system dep) t ⟨o, res⟩) ((after dep t k s o res).row r) := by
  cases o
  case insertPending record =>
    cases res
    · exact .same _
    · simp only [after, State.row, row_insertPending hl]
      split
      · rename_i h
        exact .insert h (h ▸ hl)
      · exact .same _
  case markInProgress id =>
    cases res
    · exact .same _
    · simp only [after, State.row, row_markInProgress]
      split
      · rename_i h
        exact h ▸ .mark
      · exact .same _
  case finalize id patch =>
    cases res
    · exact .same _
    · simp only [after, State.row, row_finalize]
      split
      · rename_i h
        exact h ▸ .finalize
      · exact .same _
  case rawPut id payload =>
    simp only [after, State.write]
    split <;> exact .same _
  all_goals
    cases res <;> exact .same _

lemma onSpawn_rows (s : State) (k : Kind) : (onSpawn s k).rows = s.rows := by
  rw [onSpawn]
  split <;> rfl

lemma onExit_rows (s : State) (k : Kind) : (onExit s k).rows = s.rows := by
  rw [onExit]
  split <;> rfl

lemma onEnv_rows (s : State) (e : Env) : (onEnv s e).rows = s.rows := by
  cases e <;> rfl

variable {w w' : ProxyWorld dep} {l : ProxyLabel dep}

lemma rowStep (hs : Step w l w') (r : Str) : RowStep w.state r l (w'.state.row r) := by
  cases hs with
  | @spawn t k ht hc =>
    have h : (onSpawn w.state k).row r = w.state.row r := congrArg (lookup r) (onSpawn_rows _ _)
    exact h ▸ .same _
  | act ht hl => exact rowStep_after hl r
  | @exit t k p ht hd =>
    have h : (onExit w.state k).row r = w.state.row r := congrArg (lookup r) (onExit_rows _ _)
    exact h ▸ .same _
  | @env e he =>
    have h : (onEnv w.state e).row r = w.state.row r := congrArg (lookup r) (onEnv_rows _ _)
    exact h ▸ .same _
  | crash => exact .same _

lemma mark_row {t : ℕ} {r : Str} (hs : Step w (.act t ⟨.markInProgress r, .ok ()⟩) w') :
    w'.state.row r = (w.state.row r).map (markedInProgress w.state.clock) := by
  cases hs with
  | act ht hl => exact (row_markInProgress _ r r).trans (if_pos rfl)

lemma finalize_row {t : ℕ} {r : Str} {patch : FinalizePatch}
    (hs : Step w (.act t ⟨.finalize r patch, .ok ()⟩) w') :
    w'.state.row r = (w.state.row r).map (finalized w.state.clock patch) := by
  cases hs with
  | act ht hl => exact (row_finalize _ r r patch).trans (if_pos rfl)

lemma RowStep.persists {s : State} {r : Str} {l : ProxyLabel dep} {after : Option ComparisonRow}
    (h : RowStep s r l after) {row : ComparisonRow} (hr : s.row r = some row) :
    ∃ row', after = some row' ∧ row'.toPendingComparison = row.toPendingComparison := by
  cases h with
  | same => exact ⟨row, hr, rfl⟩
  | insert hid hn => simp [hr] at hn
  | mark => exact ⟨markedInProgress s.clock row, by rw [hr]; rfl, rfl⟩
  | @finalize t patch => exact ⟨finalized s.clock patch row, by rw [hr]; rfl, rfl⟩

lemma row_kept (dep : Deployment) (t : ℕ) (k : Kind) (s : State) (o : Op) (res : Except Exn o.Ret)
    (hl : legal dep k s o res) {r : Str} {row : ComparisonRow} (hr : s.row r = some row) :
    ∃ row', (after dep t k s o res).row r = some row' ∧
      row'.toPendingComparison = row.toPendingComparison :=
  (rowStep_after hl r).persists hr

lemma row_persists (hs : Step w l w') {r : Str} {row : ComparisonRow} (hr : w.state.row r = some row) :
    ∃ row', w'.state.row r = some row' ∧ row'.toPendingComparison = row.toPendingComparison :=
  (rowStep hs r).persists hr

lemma rows_after {s : State} {k : Kind} {t : ℕ} {o : Op} {res : Except Exn o.Ret} (hl : legal dep k s o res) :
    (after dep t k s o res).rows.map rowId = s.rows.map rowId ∨
      ∃ id, s.row id = none ∧ (after dep t k s o res).rows.map rowId = s.rows.map rowId ++ [id] := by
  cases o
  case insertPending record =>
    cases res
    · exact .inl rfl
    · exact .inr ⟨record.requestId, hl, by simp [after, insertPending, rowId]⟩
  case markInProgress id =>
    cases res
    · exact .inl rfl
    · exact .inl (Table.map_key_modify (rowId_markedInProgress _) _ _)
  case finalize id patch =>
    cases res
    · exact .inl rfl
    · exact .inl (Table.map_key_modify (rowId_finalized _ _) _ _)
  case rawPut id payload =>
    simp only [after, State.write]
    split <;> exact .inl rfl
  all_goals
    cases res <;> exact .inl rfl

lemma rows_step (hs : Step w l w') : w'.state.rows.map rowId = w.state.rows.map rowId ∨
    ∃ id, w.state.row id = none ∧ w'.state.rows.map rowId = w.state.rows.map rowId ++ [id] := by
  cases hs with
  | spawn ht hc => exact .inl (congrArg _ (onSpawn_rows _ _))
  | act ht hl => exact rows_after hl
  | exit ht hd => exact .inl (congrArg _ (onExit_rows _ _))
  | env he => exact .inl (congrArg _ (onEnv_rows _ _))
  | crash => exact .inl rfl

inductive ObjectStep (dep : Deployment) (s : State) (loc : Location) : ProxyLabel dep → Option RawObject → Prop
  | same (l : ProxyLabel dep) : ObjectStep dep s loc l (s.objects loc)
  | put {t : ℕ} {id : Str} {payload : Json} {res : Except Exn Str} {obj : RawObject} :
      loc = dep.locate (keyFor s.clock id) → RawObject.ofPut payload res = some obj →
      ObjectStep dep s loc (.act t ⟨.rawPut id payload, res⟩) (some obj)

lemma objectStep_after (dep : Deployment) (s : State) (k : Kind) (t : ℕ) (o : Op) (res : Except Exn o.Ret)
    (loc : Location) : ObjectStep dep s loc (.act t ⟨o, res⟩) ((after dep t k s o res).objects loc) := by
  cases o
  case rawPut id payload =>
    simp only [after, State.write]
    split
    · exact .same _
    · rename_i obj hobj
      by_cases hloc : loc = dep.locate (keyFor s.clock id)
      · subst hloc
        simp only [Function.update_self]
        exact .put rfl hobj
      · simp only [Function.update_of_ne hloc]
        exact .same _
  all_goals
    cases res <;> exact .same _

lemma onSpawn_objects (s : State) (k : Kind) : (onSpawn s k).objects = s.objects := by
  rw [onSpawn]
  split <;> rfl

lemma onExit_objects (s : State) (k : Kind) : (onExit s k).objects = s.objects := by
  rw [onExit]
  split <;> rfl

lemma onEnv_objects (s : State) (e : Env) : (onEnv s e).objects = s.objects := by
  cases e <;> rfl

lemma objectStep (hs : Step w l w') (loc : Location) : ObjectStep dep w.state loc l (w'.state.objects loc) := by
  cases hs with
  | @spawn t k ht hc =>
    have h : (onSpawn w.state k).objects loc = w.state.objects loc := congrFun (onSpawn_objects _ _) loc
    exact h ▸ .same _
  | act ht hl => exact objectStep_after _ _ _ _ _ _ loc
  | @exit t k p ht hd =>
    have h : (onExit w.state k).objects loc = w.state.objects loc := congrFun (onExit_objects _ _) loc
    exact h ▸ .same _
  | @env e he =>
    have h : (onEnv w.state e).objects loc = w.state.objects loc := congrFun (onEnv_objects _ _) loc
    exact h ▸ .same _
  | crash => exact .same _

inductive QueuesStep (s s' : State) : ProxyLabel dep → Prop
  | shrink (l : ProxyLabel dep) (x : ℕ) : (∀ y, y ≠ x → (s'.procs y).queue = (s.procs y).queue) →
      (s'.procs x).queue.Sublist (s.procs x).queue → QueuesStep s s' l
  | push {x t : ℕ} {r : Str} {q : List CandidateJob} : (∀ y, y ≠ x → (s'.procs y).queue = (s.procs y).queue) →
      q.Sublist (s.procs x).queue → (s'.procs x).queue = q ++ [⟨r, t⟩] →
      QueuesStep s s' (.act t ⟨.enqueue r, .ok .enqueued⟩)

lemma QueuesStep.same {s s' : State} (l : ProxyLabel dep) (hp : s'.procs = s.procs) : QueuesStep s s' l := by
  apply QueuesStep.shrink l 0
  · exact fun _ _ => by rw [hp]
  · rw [hp]

lemma QueuesStep.setProc (s : State) (x : ℕ) {p : Process} (l : ProxyLabel dep)
    (hp : p.queue.Sublist (s.procs x).queue) : QueuesStep s (s.setProc x p) l := by
  apply QueuesStep.shrink l x
  · intro y hy
    simp only [State.setProc, Function.update_of_ne hy]
  · simpa only [State.setProc, Function.update_self] using hp

lemma queuesStep_after {s : State} {k : Kind} {t : ℕ} {o : Op} {res : Except Exn o.Ret}
    (hl : legal dep k s o res) :
    QueuesStep s (after dep t k s o res) (Label.act (S := system dep) t ⟨o, res⟩) := by
  cases o
  case enqueue r =>
    cases res with
    | error e => exact .same _ rfl
    | ok dispatch =>
      have hstatus := hl.trans (InProcessDispatcher.enqueue_status dep.config.dispatcher (s.procs k.replica).queue
        ⟨r, 0⟩ ⟨r, t⟩)
      cases dispatch with
      | dropped =>
        apply QueuesStep.setProc s k.replica
        rw [InProcessDispatcher.enqueue_dropped hstatus.symm]
      | enqueued =>
        obtain ⟨q, hq, he⟩ := InProcessDispatcher.enqueue_enqueued hstatus.symm
        refine .push (x := k.replica) (fun y hy => ?_) hq ?_
        · simp only [after, State.setProc, Function.update_of_ne hy]
        · simpa only [after, State.setProc, Function.update_self] using he
  case serve =>
    cases res
    · exact .same _ rfl
    · apply QueuesStep.setProc s k.replica
      exact List.Sublist.refl _
  case rawPut id payload =>
    simp only [after, State.write]
    split <;> exact .same _ rfl
  all_goals
    cases res <;> exact .same _ rfl

lemma queuesStep (hs : Step w l w') : QueuesStep w.state w'.state l := by
  cases hs with
  | @spawn t k ht hc =>
    simp only [World.spawn, onSpawn]
    split
    · exact .same _ rfl
    all_goals apply QueuesStep.setProc
    · exact List.tail_sublist _
    · exact List.Sublist.refl _
    · exact List.nil_sublist _
  | act ht hl => exact queuesStep_after hl
  | @exit t k p ht hd =>
    simp only [World.exit, onExit]
    split
    · apply QueuesStep.setProc
      exact List.Sublist.refl _
    · apply QueuesStep.setProc
      exact List.Sublist.refl _
    · exact .same _ rfl
  | @env e he =>
    cases e with
    | tick => exact .same _ rfl
    | putConfig x rate =>
      apply QueuesStep.setProc
      exact List.Sublist.refl _
  | crash =>
    apply QueuesStep.setProc
    exact List.nil_sublist _

lemma queue_step (hs : Step w l w') {x : ℕ} {job : CandidateJob} (hj : job ∈ (w'.state.procs x).queue) :
    job ∈ (w.state.procs x).queue ∨
      ∃ res, l = .act job.enqueuedBy ⟨.enqueue job.requestId, res⟩ := by
  cases queuesStep hs with
  | shrink l y hother hself =>
    by_cases hx : x = y
    · exact .inl (hx ▸ hself.subset (hx ▸ hj))
    · exact .inl (hother x hx ▸ hj)
  | @push y t r q hother hq hself =>
    by_cases hx : x = y
    · subst hx
      rw [hself, List.mem_append, List.mem_singleton] at hj
      rcases hj with hj | rfl
      · exact .inl (hq.subset hj)
      · exact .inr ⟨_, rfl⟩
    · exact .inl (hother x hx ▸ hj)

lemma handle_takes {t x : ℕ} {job : CandidateJob} (hs : Step w (.spawn t ⟨x, .handle job⟩) w') :
    (w.state.procs x).queue = job :: (w'.state.procs x).queue := by
  cases hs with
  | spawn _ hc =>
    obtain ⟨_, hhead, _⟩ := hc
    cases hq : (w.state.procs x).queue with
    | nil => simp [hq] at hhead
    | cons j q =>
      simp only [hq, List.head?_cons, Option.some.injEq] at hhead
      subst hhead
      simp only [World.spawn, onSpawn, State.setProc, Function.update_self, hq, List.tail_cons]

lemma handle_spawned {t x : ℕ} {job : CandidateJob} (hs : Step w (.spawn t ⟨x, .handle job⟩) w') :
    job ∈ (w.state.procs x).queue := by
  rw [handle_takes hs]
  exact List.mem_cons_self

section Runs

variable {clock : DateTime} {L : List (ProxyLabel dep)} {t : ℕ} {r : Str}

lemma Run.rows_nodup (h : Run (start dep clock) L w) : (w.state.rows.map rowId).Nodup := by
  induction h with
  | nil => exact List.nodup_nil
  | @snoc L w l w' _ _ hs ih =>
    rcases rows_step hs with he | ⟨id, hn, he⟩ <;> rw [he]
    · exact ih
    · refine List.nodup_append.mpr ⟨ih, List.nodup_singleton _, fun a ha b hb => ?_⟩
      obtain rfl := List.mem_singleton.mp hb
      obtain ⟨row, hrow, rfl⟩ := List.mem_map.mp ha
      exact Table.lookup_eq_none.mp hn row hrow

lemma Run.row_of_mem (h : Run (start dep clock) L w) {row : ComparisonRow} (hm : row ∈ w.state.rows) :
    w.state.row row.requestId = some row :=
  Table.lookup_of_mem (Run.rows_nodup h) hm

lemma Run.row_inserted (h : Run (start dep clock) L w) {row : ComparisonRow} (hr : w.state.row r = some row) :
    row.requestId = r ∧ ∃ t, Acted L t (.insertPending row.toPendingComparison) (.ok ()) := by
  induction h generalizing row with
  | nil => cases hr
  | @snoc L w l w' _ _ hs ih =>
    have hstep := rowStep hs r
    rw [hr] at hstep
    generalize ha : some row = after at hstep
    cases hstep with
    | same =>
      obtain ⟨hid, t, ht⟩ := ih ha.symm
      exact ⟨hid, t, ht.snoc _⟩
    | @insert t record hid =>
      obtain rfl := Option.some.inj ha
      exact ⟨hid, t, acted_snoc.mpr (.inr rfl)⟩
    | mark | finalize =>
      obtain ⟨row₀, hr₀, rfl⟩ := Option.map_eq_some_iff.mp ha.symm
      obtain ⟨hid, t, ht⟩ := ih hr₀
      exact ⟨hid, t, ht.snoc _⟩

lemma Run.insert_row (h : Run (start dep clock) L w) {record : PendingComparison}
    (ha : Acted L t (.insertPending record) (.ok ())) :
    ∃ row, w.state.row record.requestId = some row ∧ row.toPendingComparison = record := by
  induction h with
  | nil => cases ha
  | @snoc L w l w' _ _ hs ih =>
    rcases acted_snoc.mp ha with ha | rfl
    · obtain ⟨row, hr, rfl⟩ := ih ha
      exact row_persists hs hr
    · cases hs with
      | act ht hl => exact ⟨newRow record, (row_insertPending hl _).trans (if_pos rfl), rfl⟩

lemma Run.get_row (h : Run (start dep clock) L w) {record : ComparisonRow}
    (ha : Acted L t (.get r) (.ok (some record))) :
    ∃ row, w.state.row r = some row ∧ row.toPendingComparison = record.toPendingComparison := by
  induction h with
  | nil => cases ha
  | @snoc L w l w' _ _ hs ih =>
    rcases acted_snoc.mp ha with ha | rfl
    · obtain ⟨row, hr, hp⟩ := ih ha
      obtain ⟨row', hr', hp'⟩ := row_persists hs hr
      exact ⟨row', hr', hp'.trans hp⟩
    · cases hs with
      | act ht hl => exact ⟨record, hl.symm, rfl⟩

lemma findAllUnfinished_row (h : Run (start dep clock) L w) {limit : ℕ} {ids : List Str}
    (hf : FindAllUnfinished limit w.state.rows ids) (hr : r ∈ ids) : ∃ row, w.state.row r = some row := by
  obtain ⟨rows, hperm, _, rfl⟩ := hf
  obtain ⟨row, hm, rfl⟩ := List.mem_map.mp hr
  have hm := (List.mem_filter.mp (hperm.subset (List.mem_of_mem_take hm))).1
  exact ⟨row, Run.row_of_mem h hm⟩

lemma Run.found_row (h : Run (start dep clock) L w) {limit : ℕ} {ids : List Str}
    (ha : Acted L t (.findAllUnfinished limit) (.ok ids)) (hr : r ∈ ids) : ∃ row, w.state.row r = some row := by
  induction h with
  | nil => cases ha
  | @snoc L w l w' hrun _ hs ih =>
    have hrow : ∃ row, w.state.row r = some row := by
      rcases acted_snoc.mp ha with ha | rfl
      · exact ih ha
      · cases hs with
        | act ht hl => exact findAllUnfinished_row hrun hl hr
    obtain ⟨row, hrow⟩ := hrow
    obtain ⟨row', hrow', -⟩ := row_persists hs hrow
    exact ⟨row', hrow'⟩

lemma Run.insert_unique (h : Run (start dep clock) L w) {t' : ℕ} {record record' : PendingComparison}
    (ha : Acted L t (.insertPending record) (.ok ())) (ha' : Acted L t' (.insertPending record') (.ok ()))
    (hid : record.requestId = record'.requestId) : t = t' ∧ record = record' := by
  induction h with
  | nil => cases ha
  | @snoc L w l w' hr _ hs ih =>
    have hfresh : ∀ {u u' : ℕ} {rec rec' : PendingComparison}, Acted L u (.insertPending rec) (.ok ()) →
        l = .act u' ⟨.insertPending rec', .ok ()⟩ → rec.requestId ≠ rec'.requestId := by
      rintro u u' rec rec' hu rfl he
      obtain ⟨row, hrow, _⟩ := Run.insert_row hr hu
      cases hs with
      | act ht hl => simp [legal, ← he, hrow] at hl
    rcases acted_snoc.mp ha with ha | hl <;> rcases acted_snoc.mp ha' with ha' | hl'
    · exact ih ha ha'
    · exact absurd hid (hfresh ha hl')
    · exact absurd hid.symm (hfresh ha' hl)
    · rw [hl] at hl'
      simpa using hl'

lemma Run.issued (h : Run (start dep clock) L w) {o : Op} {res : Except Exn o.Ret}
    (hs : Step w (.act t ⟨o, res⟩) w') : ∃ task : Task, Started L t task ∧ task.Spec dep (history t L) o := by
  obtain ⟨k, hk, _, _, hJ⟩ := (h.tracked fun _ => rfl).issued hs
  exact ⟨k.task, ⟨k.replica, hk⟩, hJ _ (issues_taskProgram dep k.task)⟩

lemma Started.mono {L' : List (ProxyLabel dep)} {task : Task} (hs : Started L t task) (hL : L ⊆ L') :
    Started L' t task := by
  obtain ⟨x, hx⟩ := hs
  exact ⟨x, hL hx⟩

lemma Run.acted_issued (h : Run (start dep clock) L w) {o : Op} {res : Except Exn o.Ret} (ha : Acted L t o res) :
    ∃ (task : Task) (L₁ : List (ProxyLabel dep)), Started L t task ∧ L₁ <+: L ∧ task.Spec dep (history t L₁) o :=
      by
  obtain ⟨L₁, L₂, w₁, w₂, rfl, h₁, hs⟩ := Run.split h ha
  obtain ⟨task, hk, hspec⟩ := Run.issued h₁ hs
  exact ⟨task, L₁, hk.mono (by simp), List.prefix_append _ _, hspec⟩

lemma Run.started_unique (h : Run (start dep clock) L w) {task task' : Task} (hs : Started L t task)
    (hs' : Started L t task') : task = task' := by
  obtain ⟨x, hx⟩ := hs
  obtain ⟨x', hx'⟩ := hs'
  have hk := (h.tracked fun _ => rfl).unique t _ _ hx hx'
  exact congrArg Kind.task hk

lemma Run.job_enqueued (h : Run (start dep clock) L w) : (∀ x, ∀ job ∈ (w.state.procs x).queue,
    ∃ res, Acted L job.enqueuedBy (.enqueue job.requestId) res) ∧ ∀ t job, Started L t (.handle job) →
    ∃ res, Acted L job.enqueuedBy (.enqueue job.requestId) res := by
  induction h with
  | nil => exact ⟨fun _ _ hj => (nomatch hj), fun _ _ hs => (nomatch hs.choose_spec)⟩
  | @snoc L w l w' hr _ hs ih =>
    have hold : ∀ {job : CandidateJob}, (∃ res, Acted L job.enqueuedBy (.enqueue job.requestId) res) →
        ∃ res, Acted (L ++ [l]) job.enqueuedBy (.enqueue job.requestId) res := fun ⟨res, ha⟩ => ⟨res, ha.snoc l⟩
    refine ⟨fun x job hj => ?_, fun t job hst => ?_⟩
    · rcases queue_step hs hj with hj | ⟨res, rfl⟩
      · exact hold (ih.1 x job hj)
      · exact ⟨res, acted_snoc.mpr (.inr rfl)⟩
    · obtain ⟨x, hx⟩ := hst
      rcases List.mem_append.mp hx with hx | hx
      · exact hold (ih.2 t job ⟨x, hx⟩)
      · obtain rfl := List.mem_singleton.mp hx
        exact hold (ih.1 x job (handle_spawned hs))

lemma Run.once (h : Run (start dep clock) L w) {P : Ev → Prop}
    (hP : ∀ (task : Task) h o r, Started L t task → task.Spec dep h o → P ⟨o, r⟩ → ∀ e ∈ h, ¬ P e) {e e' : Ev}
    (he : Label.act (S := system dep) t e ∈ L) (he' : Label.act (S := system dep) t e' ∈ L) (hp : P e)
    (hp' : P e') : e = e' := by
  induction h with
  | nil => cases he
  | @snoc L w l w' hr _ hs ih =>
    have hfirst : ∀ {a b : Ev}, Label.act (S := system dep) t a ∈ L → l = .act t b → P b → ¬ P a := by
      rintro a ⟨o, r⟩ ha rfl hb
      obtain ⟨task, hst, hspec⟩ := Run.issued hr hs
      apply hP task _ o r (hst.mono (by simp)) hspec hb
      exact (mem_history (S := system dep)).mpr ha
    have hmem : ∀ {a : Ev}, Label.act (S := system dep) t a ∈ L ++ [l] → Label.act (S := system dep) t a ∈ L ∨
      l = .act t a := by
      intro a ha
      simpa [eq_comm] using ha
    rcases hmem he with he | hl <;> rcases hmem he' with he' | hl'
    · exact ih (fun task h o r hst => hP task h o r (hst.mono (by simp))) he he'
    · exact absurd hp (hfirst he hl' hp')
    · exact absurd hp' (hfirst he' hl hp)
    · rw [hl] at hl'
      cases hl'
      rfl

lemma Run.chat_once (h : Run (start dep clock) L w) {c : ChatCall} (hc : Started L t (.chat c)) {P : Ev → Prop}
    (hP : ∀ h o r, (Task.chat c).Spec dep h o → P ⟨o, r⟩ → ∀ e ∈ h, ¬ P e) {e e' : Ev}
    (he : Label.act (S := system dep) t e ∈ L) (he' : Label.act (S := system dep) t e' ∈ L) (hp : P e)
    (hp' : P e') : e = e' := by
  apply Run.once h (fun task h' o r hst hspec => ?_) he he' hp hp'
  obtain rfl := Run.started_unique h hst hc
  exact hP h' o r hspec

end Runs

def chatId : ProxyLabel dep → Option Str
  | .spawn _ ⟨_, .chat c⟩ => some c.requestId
  | _ => none

def chatIds (L : List (ProxyLabel dep)) : List Str := L.filterMap chatId

def replicas (L : List (ProxyLabel dep)) : List ℕ :=
  L.filterMap fun
    | .spawn _ k => some k.replica
    | _ => none

lemma mem_chatIds {L : List (ProxyLabel dep)} {n : ℕ} {c : ChatCall} (hs : Started L n (.chat c)) :
    c.requestId ∈ chatIds L := by
  obtain ⟨x, hx⟩ := hs
  exact List.mem_filterMap.mpr ⟨_, hx, rfl⟩

lemma chat_unique {L : List (ProxyLabel dep)} (hn : (chatIds L).Nodup) {n n' : ℕ} {c c' : ChatCall}
    (hs : Started L n (.chat c)) (hs' : Started L n' (.chat c')) (hid : c.requestId = c'.requestId) : n = n' := by
  obtain ⟨x, hx⟩ := hs
  obtain ⟨x', hx'⟩ := hs'
  by_contra hne
  have hp := List.pairwise_filterMap.mp hn
  have : Std.Symm fun l l' : ProxyLabel dep => ∀ b, chatId l = some b → ∀ b', chatId l' = some b' → b ≠ b' :=
    ⟨fun l l' h b hb b' hb' => (h b' hb' b hb).symm⟩
  refine hp.forall hx hx' (fun he => ?_) _ rfl _ rfl hid
  cases he
  exact hne rfl

end ShadowProxy
