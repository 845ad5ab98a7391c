import ShadowProxy.Effects.Erasure
import ShadowProxy.Scenario

/-! A run without the requests that the gate rejected. -/

namespace ShadowProxy

open Effects Data SqlComparisonStore

variable {dep : Deployment} {clock : DateTime} {w w' : ProxyWorld dep} {L : List (ProxyLabel dep)}
  {l : ProxyLabel dep} {D : ℕ → Bool} {s s' : State} {k : Kind} {t : ℕ} {r : Str}

def sampledOut (L : List (ProxyLabel dep)) (t : ℕ) : Bool := L.any (acted t (drew false))

def ownInsert (D : ℕ → Bool) (r : Str) : ProxyLabel dep → Bool
  | .act t ⟨.insertPending record, .ok ()⟩ => D t && record.requestId = r
  | _ => false

def owns (D : ℕ → Bool) (L : List (ProxyLabel dep)) (r : Str) : Bool := L.any (ownInsert D r)

def PutAt (D : ℕ → Bool) (L : List (ProxyLabel dep)) (loc : Location) : Prop :=
  ∃ t id payload res now, D t = true ∧ Acted L t (.rawPut id payload) res ∧ loc = dep.locate (keyFor now id)

structure Unseen (D : ℕ → Bool) (L : List (ProxyLabel dep)) (w : ProxyWorld dep) (l : ProxyLabel dep) : Prop where
  stale : ∀ t threshold limit ids, l = .act t ⟨.findStale threshold limit, .ok ids⟩ → ∀ r ∈ ids, owns D L r = false
  unfinished : ∀ t limit ids, l = .act t ⟨.findAllUnfinished limit, .ok ids⟩ → ∀ r ∈ ids, owns D L r = false
  row : ∀ t r row, l = .act t ⟨.get r, .ok (some row)⟩ → owns D L r = false
  payload : ∀ t key doc, l = .act t ⟨.rawGet key, .ok doc⟩ → ¬ PutAt D L (dep.locate key)

lemma owns_snoc (r : Str) : owns D (L ++ [l]) r = (owns D L r || ownInsert D r l) := by simp [owns]

lemma ownInsert_true (h : ownInsert D r l = true) :
    ∃ t record, l = .act t ⟨.insertPending record, .ok ()⟩ ∧ D t = true ∧
    record.requestId = r := by
  unfold ownInsert at h
  split at h
  · simp only [Bool.and_eq_true, decide_eq_true_eq] at h
    exact ⟨_, _, rfl, h.1, h.2⟩
  · cases h

lemma owns_row (h : Run (start dep clock) L w) (ho : owns D L r = true) : ∃ row, w.state.row r = some row := by
  obtain ⟨l, hl, ho⟩ := List.any_eq_true.mp ho
  obtain ⟨t, record, rfl, _, rfl⟩ := ownInsert_true ho
  obtain ⟨row, hrow, _⟩ := Run.insert_row h hl
  exact ⟨row, hrow⟩

lemma not_owns_of_fresh (h : Run (start dep clock) L w) (hn : w.state.row r = none) : owns D L r = false := by
  rw [Bool.eq_false_iff]
  intro ho
  obtain ⟨row, hrow⟩ := owns_row h ho
  simp [hn] at hrow

structure Without (D : ℕ → Bool) (L : List (ProxyLabel dep)) (s s' : State) : Prop where
  clock : s'.clock = s.clock
  procs : s'.procs = s.procs
  rows : s'.rows = s.rows.filter fun row => !owns D L row.requestId
  objects : ∀ loc, ¬ PutAt D L loc → s'.objects loc = s.objects loc

lemma PutAt.snoc {loc : Location} (hp : PutAt D L loc) (l : ProxyLabel dep) : PutAt D (L ++ [l]) loc := by
  obtain ⟨t, id, payload, res, now, hD, ha, hloc⟩ := hp
  exact ⟨t, id, payload, res, now, hD, ha.snoc l, hloc⟩

lemma Without.snoc (hw : Without D L s s') (hl : ∀ r, ownInsert D r l = false) : Without D (L ++ [l]) s s' where
  clock := hw.clock
  procs := hw.procs
  rows := by simp only [hw.rows, owns_snoc, hl, Bool.or_false]
  objects loc hp := hw.objects loc fun h => hp (h.snoc l)

lemma Without.row (hw : Without D L s s') (r : Str) : s'.row r = if owns D L r then none else s.row r := by
  have hf : lookup r (s.rows.filter fun row => !owns D L row.requestId) = if !owns D L r then s.row r else none :=
    Table.lookup_filter (fun id => !owns D L id) r s.rows
  rw [State.row, hw.rows, hf]
  cases owns D L r <;> rfl

lemma Without.legal_act (hw : Without D L w.state s') {o : Op} {res : Except Exn o.Ret}
    (hc : Unseen D L w (.act t ⟨o, res⟩)) (hl : legal dep k w.state o res) : legal dep k s' o res := by
  cases o <;> cases res
  case now.ok now => exact hl.trans hw.clock.symm
  case rawPut.ok id payload key =>
    rw [legal, hw.clock]
    exact hl
  case rawGet.ok key doc => exact (hw.objects _ (hc.payload t key doc rfl)).trans hl
  case insertPending.ok record _ =>
    have hn : w.state.row record.requestId = none := hl
    rw [legal, hw.row, hn, ite_self]
  case get.ok r record =>
    obtain rfl : record = w.state.row r := hl
    rw [legal, hw.row]
    cases hrow : w.state.row r with
    | none => rw [ite_self]
    | some row =>
      rw [hrow] at hc
      simp [hc.row t r row rfl]
  case findStale.ok threshold limit ids =>
    rw [legal, hw.clock, hw.rows]
    have hf : FindStale w.state.clock threshold limit w.state.rows ids := hl
    exact hf.filter (p := fun r => !owns D L r) fun r hr => by simp [hc.stale t threshold limit ids rfl r hr]
  case findAllUnfinished.ok limit ids =>
    rw [legal, hw.rows]
    have hf : FindAllUnfinished limit w.state.rows ids := hl
    exact hf.filter (p := fun r => !owns D L r) fun r hr => by simp [hc.unfinished t limit ids rfl r hr]
  case sample.ok gate =>
    obtain ⟨rate, draw⟩ := gate
    rw [legal, hw.procs]
    exact hl
  case enqueue.ok r dispatch =>
    rw [legal, hw.procs]
    exact hl
  all_goals exact hl

lemma ownInsert_kept (hD : D t = false) (e : Ev) (r : Str) :
    ownInsert D r (.act t e : ProxyLabel dep) = false := by
  unfold ownInsert
  split <;> simp_all

lemma Without.rows_modify (hw : Without D L s s') (id : Str) {f : ComparisonRow → ComparisonRow}
    (hf : ∀ row, rowId (f row) = rowId row) : Table.modify rowId id f s'.rows =
      (Table.modify rowId id f s.rows).filter fun row => !owns D L row.requestId := by
  rw [hw.rows]
  exact Table.modify_filter hf (fun id => !owns D L id) id s.rows

lemma Without.write (hw : Without D L s s') (loc : Location) (obj : Option RawObject) :
    Without D L (s.write loc obj) (s'.write loc obj) := by
  cases obj with
  | none => exact hw
  | some obj =>
    refine ⟨hw.clock, hw.procs, hw.rows, fun loc' hp => ?_⟩
    simp only [State.write, Function.update_apply]
    split
    · rfl
    · exact hw.objects loc' hp

lemma Without.setProc (hw : Without D L s s') (x : ℕ) (p : Process) :
    Without D L (s.setProc x p) (s'.setProc x p) where
  clock := hw.clock
  procs := by simp only [State.setProc, hw.procs]
  rows := hw.rows
  objects := hw.objects

lemma Without.after_act (hw : Without D L w.state s') (h : Run (start dep clock) L w) {o : Op}
    {res : Except Exn o.Ret} (hl : legal dep k w.state o res) :
    Without D L (after dep t k w.state o res) (after dep t k s' o res) := by
  cases o <;> cases res
  case rawPut.ok id payload key =>
    simp only [after, hw.clock]
    exact hw.write _ _
  case rawPut.error id payload e =>
    simp only [after, hw.clock]
    exact hw.write _ _
  case insertPending.ok record _ =>
    refine ⟨hw.clock, hw.procs, ?_, hw.objects⟩
    have ho : owns D L record.requestId = false := not_owns_of_fresh h hl
    simp [after, insertPending, hw.rows, List.filter_append, newRow, ho]
  case markInProgress.ok id _ =>
    refine ⟨hw.clock, hw.procs, ?_, hw.objects⟩
    simp only [after, hw.clock]
    exact hw.rows_modify id (rowId_markedInProgress _)
  case finalize.ok id patch _ =>
    refine ⟨hw.clock, hw.procs, ?_, hw.objects⟩
    simp only [after, hw.clock]
    exact hw.rows_modify id (rowId_finalized _ _)
  case enqueue.ok r dispatch =>
    simp only [after, hw.procs]
    exact hw.setProc _ _
  case serve.ok =>
    simp only [after, hw.procs]
    exact hw.setProc _ _
  all_goals exact hw

lemma Without.can_spawn (hw : Without D L s s') (hc : canSpawn dep s k) : canSpawn dep s' k := by
  unfold canSpawn at hc ⊢
  rwa [hw.procs]

lemma Without.spawned (hw : Without D L s s') : Without D L (onSpawn s k) (onSpawn s' k) := by
  unfold onSpawn
  rw [hw.procs]
  cases k.task with
  | chat => exact hw
  | handle | sweep | startup => exact hw.setProc _ _

lemma Without.exited (hw : Without D L s s') : Without D L (onExit s k) (onExit s' k) := by
  unfold onExit
  rw [hw.procs]
  cases k.task with
  | chat | startup => exact hw
  | handle | sweep => exact hw.setProc _ _

lemma Without.can_env (hw : Without D L s s') {e : Env} (hc : canEnv s e) : canEnv s' e := by
  cases e with
  | tick now =>
    rw [canEnv, hw.clock]
    exact hc
  | putConfig x rate =>
    rw [canEnv, hw.procs]
    exact hc

lemma Without.env (hw : Without D L s s') {e : Env} : Without D L (onEnv s e) (onEnv s' e) := by
  cases e with
  | tick now => exact ⟨rfl, hw.procs, hw.rows, hw.objects⟩
  | putConfig x rate =>
    rw [onEnv, onEnv, hw.procs]
    exact hw.setProc _ _

structure Unqueued (D : ℕ → Bool) (L : List (ProxyLabel dep)) : Prop where
  chat : ∀ t, D t = true → ∃ c, Started L t (.chat c)
  unqueued : ∀ t r res, D t = true → ¬ Acted L t (.enqueue r) res

def isSample : Ev → Prop
  | ⟨.sample, _⟩ => True
  | _ => False

lemma sample_once (h : Run (start dep clock) L w) {c : ChatCall} (hc : Started L t (.chat c))
    {res res' : Except Exn (ℚ × ℚ)} (ha : Acted L t .sample res) (ha' : Acted L t .sample res') :
    res = res' := by
  have he := Run.chat_once h hc (P := isSample) ?_ ha ha' trivial trivial
  · cases he
    rfl
  · rintro h' o r hspec hp ⟨o', r'⟩ he hpe
    cases o <;> try exact hp
    cases o' <;> try exact hpe
    exact hspec.1 _ he rfl

lemma sampledOut_unqueued (h : Run (start dep clock) L w) : Unqueued (sampledOut L) L := by
  have hdrew : ∀ t, sampledOut L t = true → ∃ c rate draw, Started L t (.chat c) ∧
      Acted L t .sample (.ok (rate, draw)) ∧
      ¬ draw < rate := by
    intro t ht
    obtain ⟨rate, draw, ha, hd⟩ := acted_drew.mp ht
    obtain ⟨task, _, hst, _, hspec⟩ := Run.acted_issued h ha
    cases task with
    | chat c => exact ⟨c, rate, draw, hst, ha, of_decide_eq_false hd⟩
    | handle | sweep | startup => exact hspec.elim
  constructor
  · intro t ht
    obtain ⟨c, _, _, hst, _⟩ := hdrew t ht
    exact ⟨c, hst⟩
  · intro t r res ht ha
    obtain ⟨c, rate, draw, hst, hs, hn⟩ := hdrew t ht
    obtain ⟨task, L₁, hst', hpre, hspec⟩ := Run.acted_issued h ha
    obtain rfl := Run.started_unique h hst hst'
    obtain ⟨_, _, ⟨gate, hgate⟩, hin⟩ := hspec
    have hsame := sample_once h hst (hpre.subset (did_history.mp hgate)) hs
    obtain rfl := Except.ok.inj hsame
    exact hn (hin rate draw hgate)

lemma Without.insert_own (hw : Without D L w.state s') (hD : D t = true) {record : PendingComparison}
    (hn : w.state.row record.requestId = none) : Without D (L ++ [.act t ⟨.insertPending record, .ok ()⟩])
      { w.state with rows := insertPending record w.state.rows } s' where
  clock := hw.clock
  procs := hw.procs
  objects loc hp := hw.objects loc fun h => hp (h.snoc _)
  rows := by
    have hne : ∀ row ∈ w.state.rows, record.requestId ≠ row.requestId := fun row hm he =>
      Table.lookup_eq_none.mp hn row hm he.symm
    have hold : w.state.rows.filter (fun row =>
        !owns D (L ++ [.act t ⟨.insertPending record, .ok ()⟩]) row.requestId) =
        w.state.rows.filter fun row => !owns D L row.requestId := by
      apply List.filter_congr
      intro row hm
      simp [owns_snoc, ownInsert, hne row hm]
    have hnew : owns D (L ++ [.act t ⟨.insertPending record, .ok ()⟩]) record.requestId = true := by
      simp [owns_snoc, ownInsert, hD]
    simp [insertPending, List.filter_append, hold, hnew, hw.rows]

lemma Without.put_own (hw : Without D L w.state s') (hD : D t = true) (id : Str) (payload : Json)
    (res : Except Exn Str) : Without D (L ++ [.act t ⟨.rawPut id payload, res⟩])
      (w.state.write (dep.locate (keyFor w.state.clock id)) (RawObject.ofPut payload res)) s' := by
  have hq := hw.snoc (l := .act t ⟨.rawPut id payload, res⟩) fun _ => rfl
  cases hobj : RawObject.ofPut payload res with
  | none => exact hq
  | some obj =>
    refine ⟨hq.clock, hq.procs, hq.rows, fun loc hp => ?_⟩
    have hne : loc ≠ dep.locate (keyFor w.state.clock id) := fun he =>
      hp ⟨t, id, payload, res, w.state.clock, hD, acted_snoc.mpr (.inr rfl), he⟩
    exact (hw.objects loc fun h => hp (h.snoc _)).trans (Function.update_of_ne hne _ _).symm

lemma Without.deleted_act (hw : Without D L w.state s') (h : Run (start dep clock) L w) (hD : D t = true)
    {c : ChatCall} (hst : Started L t (.chat c)) {o : Op} {res : Except Exn o.Ret}
    (hs : Step w (.act t ⟨o, res⟩) w') (hq : ∀ r, o ≠ .enqueue r) :
    Without D (L ++ [.act t ⟨o, res⟩]) w'.state s' := by
  obtain ⟨task, hst', hspec⟩ := Run.issued h hs
  obtain rfl := Run.started_unique h hst hst'
  obtain ⟨k, -, hl, ha, -⟩ := (h.tracked fun _ => rfl).issued hs
  rw [ha]
  cases o
  case insertPending record =>
    cases res with
    | error e => exact hw.snoc fun _ => rfl
    | ok _ => exact hw.insert_own hD hl
  case rawPut id payload => exact hw.put_own hD id payload res
  case enqueue r => exact absurd rfl (hq r)
  case now | perfCounter | chatCompletions | sample | count => cases res <;> exact hw.snoc fun _ => rfl
  all_goals exact hspec.elim

def Within (D : ℕ → Bool) (M L : List (ProxyLabel dep)) (w : ProxyWorld dep) (l : ProxyLabel dep) : Prop :=
  Unseen D L w l ∧ (L ++ [l]) <+: M

lemma Without.deleted {M : List (ProxyLabel dep)} {v : ProxyWorld dep} (hM : Run (start dep clock) M v)
    (hD : Unqueued D M) (hw : Without D L w.state s') (h : Run (start dep clock) L w) (hpre : (L ++ [l]) <+: M)
    (hs : Step w l w') (hl : l.keeps D = false) : Without D (L ++ [l]) w'.state s' := by
  have hsub : L ⊆ M := fun _ hx => hpre.subset (List.mem_append_left _ hx)
  have hmem : l ∈ M := hpre.subset (by simp)
  cases l with
  | env | crash => cases hl
  | spawn t k =>
    obtain ⟨c, hst⟩ := hD.chat t (by simpa [Label.keeps] using hl)
    have hk : k.task = .chat c := Run.started_unique hM ⟨k.replica, hmem⟩ hst
    cases hs with
    | spawn ht hc =>
      have hsame : onSpawn w.state k = w.state := by
        rw [onSpawn]
        rw [hk]
      exact (congrArg (Without D _ · s') hsame).mpr (hw.snoc fun _ => rfl)
  | act t e =>
    obtain ⟨o, res⟩ := e
    have hDt : D t = true := by simpa [Label.keeps] using hl
    obtain ⟨c, hst⟩ := hD.chat t hDt
    obtain ⟨task, hst', _⟩ := Run.issued h hs
    obtain rfl := Run.started_unique hM hst (hst'.mono hsub)
    refine hw.deleted_act h hDt hst' hs fun r he => ?_
    subst he
    exact hD.unqueued t r res hDt hmem
  | exit t =>
    obtain ⟨c, hst⟩ := hD.chat t (by simpa [Label.keeps] using hl)
    cases hs with
    | @exit t k p ht hd =>
      have hk : k.task = .chat c :=
        Run.started_unique hM ⟨k.replica, hsub ((h.tracked fun _ => rfl).live t _ ht).1⟩ hst
      have hsame : onExit w.state k = w.state := by
        rw [onExit]
        rw [hk]
      exact (congrArg (Without D _ · s') hsame).mpr (hw.snoc fun _ => rfl)

lemma without_erasure {M : List (ProxyLabel dep)} {v : ProxyWorld dep} (hM : Run (start dep clock) M v)
    (hD : Unqueued D M) : Erasure (Within D M) (start dep clock) D (Without D) where
  start := ⟨rfl, rfl, rfl, fun _ _ => rfl⟩
  deleted hr hc hs hl hw := hw.deleted hM hD hr.run hc.2 hs hl
  spawn _ _ hcan hw := ⟨hw.can_spawn hcan, hw.spawned.snoc fun _ => rfl⟩
  act hr hc ht _ hl hw := ⟨hw.legal_act hc.1 hl, (hw.after_act hr.run hl).snoc (ownInsert_kept ht _)⟩
  exit _ _ hw := hw.exited.snoc fun _ => rfl
  env _ hcan hw := ⟨hw.can_env hcan, hw.env.snoc fun _ => rfl⟩
  crash _ hw := (hw.setProc _ _).snoc fun _ => rfl

end ShadowProxy
