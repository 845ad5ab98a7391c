import ShadowProxy.Data.Paging
import ShadowProxy.Scenario

/-! What `list` returns, by pages and by the bounds of a window. -/

namespace ShadowProxy

open Data.Paging

inductive Backend where
  | sqlite
  | postgres
  deriving DecidableEq

/-- A timestamp with its offset from UTC, in microseconds. -/
structure OffsetDateTime where
  wallClock : DateTime
  utcOffset : ℤ
  utcOffset_mem : -86400000000 < utcOffset ∧ utcOffset < 86400000000

def OffsetDateTime.instant (x : OffsetDateTime) : ℤ := x.wallClock.instant - x.utcOffset

structure EvaluationFilters where
  since : Option OffsetDateTime := none
  until_ : Option OffsetDateTime := none
  verdict : Option Verdict := none
  route : Option Str := none
  tenantId : Option Str := none
  limit : ℕ := 100
  offset : ℕ := 0

/-- What a bound is compared by: SQLite gets its wall clock without the offset. -/
def Backend.bound : Backend → OffsetDateTime → ℤ
  | .sqlite, x => x.wallClock.instant
  | .postgres, x => x.instant

namespace SqlComparisonStore

def receivedAt (r : ComparisonRow) : ℤ := r.receivedAt.instant

def inWindow (bound : OffsetDateTime → ℤ) (f : EvaluationFilters) (r : ComparisonRow) : Bool :=
  f.since.all (fun x => bound x ≤ receivedAt r) && f.until_.all fun x => receivedAt r ≤ bound x

def selected (f : EvaluationFilters) (r : ComparisonRow) : Bool :=
  f.verdict.all (fun v => r.verdict = v) && f.route.all (fun x => r.route = x) && f.tenantId.all fun x =>
    r.tenantId = some x

def matching (b : Backend) (f : EvaluationFilters) (t : Rows) : Rows :=
  t.filter fun r => inWindow b.bound f r && selected f r

/-- `list`: rows received at the same time may come in any order. -/
def Lists (b : Backend) (f : EvaluationFilters) (t rows : Rows) : Prop :=
  IsPage receivedAt (matching b f t) f.limit f.offset rows

inductive Pages (b : Backend) (f : EvaluationFilters) (t : Rows) (limit : ℕ) : ℕ → List Rows → Prop
  | done {offset : ℕ} : Lists b { f with limit := limit, offset := offset } t [] → Pages b f t limit offset []
  | more {offset : ℕ} {page : Rows} {pages : List Rows} :
      Lists b { f with limit := limit, offset := offset } t page →
      page ≠ [] → Pages b f t limit (offset + limit) pages → Pages b f t limit offset (page :: pages)

structure Partition (b : Backend) (f : EvaluationFilters) (t : Rows) (limit : ℕ) : Prop where
  reads : ∃ pages, Pages b f t limit 0 pages
  ends : ∀ offset page, (matching b f t).length ≤ offset →
    Lists b { f with limit := limit, offset := offset } t page → page = []
  once : ∀ pages, Pages b f t limit 0 pages → pages.flatten.Perm (matching b f t)
  latestFirst : ∀ pages, Pages b f t limit 0 pages → pages.flatten.Pairwise
    fun r r' => receivedAt r' ≤ receivedAt r

variable {b : Backend} {f : EvaluationFilters} {t : Rows} {limit : ℕ}

lemma pages_iff {offset : ℕ} {pages : List Rows} :
    Pages b f t limit offset pages ↔ PagesFrom receivedAt (matching b f t) limit offset pages := by
  constructor
  · intro h
    induction h with
    | done h => exact .done h
    | more h hne _ ih => exact .more h hne ih
  · intro h
    induction h with
    | done h => exact .done h
    | more h hne _ ih => exact .more h hne ih

lemma lists_past_end {offset : ℕ} {page : Rows} (hle : (matching b f t).length ≤ offset)
    (h : Lists b { f with limit := limit, offset := offset } t page) : page = [] := by
  obtain ⟨o, ho, hpage⟩ := h
  have hlength : o.length ≤ offset := ho.perm.length_eq.trans_le hle
  rw [hpage, List.drop_eq_nil_of_le hlength, List.take_nil]

theorem partition_iff_no_split (b : Backend) (f : EvaluationFilters) (hkeys : (t.map rowId).Nodup)
    (hlimit : 1 ≤ limit) : Partition b f t limit ↔ ∀ r ∈ matching b f t, ∀ n,
      ¬ ((matching b f t).countP (fun r' => receivedAt r < receivedAt r') < n * limit ∧
        n * limit < (matching b f t).countP fun r' => receivedAt r ≤ receivedAt r') := by
  have hrows : (matching b f t).Nodup := (List.Nodup.of_map _ hkeys).filter _
  have hsplits : (∀ n, ¬ Splits receivedAt (matching b f t) (n * limit)) ↔ ∀ r ∈ matching b f t, ∀ n,
      ¬ (before receivedAt (matching b f t) r < n * limit ∧ n * limit < through receivedAt (matching b f t) r) :=
        by
    simp only [Splits, not_exists, not_and]
    exact ⟨fun h r hr n => h n r hr, fun h n r hr => h r hr n⟩
  refine Iff.trans ?_ hsplits
  rw [← partition_iff hlimit hrows]
  constructor
  · exact fun h pages hpages => ⟨h.once pages (pages_iff.mpr hpages), h.latestFirst pages (pages_iff.mpr hpages)⟩
  · intro h
    obtain ⟨o, ho⟩ := exists_ordered receivedAt (matching b f t)
    obtain ⟨pages, hpages⟩ := exists_paging hlimit ho 0
    exact ⟨⟨pages, pages_iff.mpr hpages⟩, fun _ _ => lists_past_end, fun pages hpages =>
      (h pages (pages_iff.mp hpages)).1, fun pages hpages => (h pages (pages_iff.mp hpages)).2⟩

/-- `list` pages through the rows whose instants lie in the window. -/
def ComparesInstants (b : Backend) (f : EvaluationFilters) (t : Rows) : Prop :=
  ∀ limit offset rows, Lists b { f with limit := limit, offset := offset } t rows ↔
    IsPage receivedAt (t.filter fun r => inWindow OffsetDateTime.instant f r && selected f r) limit offset rows

lemma bound_sqlite (x : OffsetDateTime) : Backend.sqlite.bound x = x.instant + x.utcOffset := by
  rw [Backend.bound, OffsetDateTime.instant, sub_add_cancel]

lemma comparesInstants_iff (hkeys : (t.map rowId).Nodup) : ComparesInstants b f t ↔
    ∀ r ∈ t, selected f r = true → inWindow b.bound f r = inWindow OffsetDateTime.instant f r := by
  have hrows : t.Nodup := List.Nodup.of_map _ hkeys
  have hsame : ComparesInstants b f t ↔
      (matching b f t).Perm (t.filter fun r => inWindow OffsetDateTime.instant f r && selected f r) :=
    same_pages_iff receivedAt (matching b f t) _
  rw [hsame, matching, List.perm_ext_iff_of_nodup (hrows.filter _) (hrows.filter _)]
  simp only [List.mem_filter, Bool.and_eq_true, and_congr_right_iff]
  constructor
  · intro h r hr hs
    exact Bool.eq_iff_iff.mpr (by simpa [hs] using h r hr)
  · exact fun h r hr => and_congr_left fun hs => by rw [h r hr hs]

theorem list_compares_instants_iff (f : EvaluationFilters) (hkeys : (t.map rowId).Nodup) :
    (∀ b, ComparesInstants b f t) ↔ ∀ r ∈ t, selected f r = true →
      (inWindow (fun x => x.instant + x.utcOffset) f r = true ↔ inWindow OffsetDateTime.instant f r = true) := by
  have hsqlite : Backend.sqlite.bound = fun x => x.instant + x.utcOffset := funext bound_sqlite
  constructor
  · intro h r hr hs
    rw [← hsqlite, (comparesInstants_iff hkeys).mp (h .sqlite) r hr hs]
  · intro h b
    refine (comparesInstants_iff hkeys).mpr fun r hr hs => ?_
    cases b with
    | sqlite =>
      rw [hsqlite]
      exact Bool.eq_iff_iff.mpr (h r hr hs)
    | postgres => rfl

def arrival (requestId : Str) (at_ : DateTime) : ComparisonRow :=
  newRow {
    requestId := requestId
    receivedAt := at_
    route := "default"
    tenantId := none
    sessionId := none
    requestHash := "hash"
    rawObjectKey := none
    primaryModel := "primary-model"
    primaryStatus := .ok
    primaryLatencyMs := 0
    primaryAction := none
    primaryError := none
    candidateModel := "candidate-model" }

def together : Rows := [arrival "a" morning, arrival "b" morning]

theorem pages_repeat_row : ¬ Partition .sqlite {} together 1 := by
  intro h
  have hpage : ∀ o : Rows, o.Perm together → o.Pairwise (fun r r' => receivedAt r' ≤ receivedAt r) → ∀ offset page,
      page = (o.drop offset).take 1 → Lists .sqlite { limit := 1, offset := offset } together page :=
    fun o hperm hsorted _ _ hpage => ⟨o, ⟨hperm, hsorted⟩, hpage⟩
  have hthird := hpage together (.refl _) (by decide) 2 [] rfl
  have hsecond := hpage together.reverse (List.reverse_perm _) (by decide) 1 [arrival "a" morning] rfl
  have hfirst := hpage together (.refl _) (by decide) 0 [arrival "a" morning] rfl
  have hperm := h.once _ (.more hfirst (by simp) (.more hsecond (by simp) (.done hthird)))
  exact absurd (hperm.mem_iff.mpr (by decide : arrival "b" morning ∈ together)) (by decide)

def apart : Rows := [arrival "a" morning, arrival "b" anHourLater]

theorem partition_iff_no_split_apart : Partition .sqlite {} apart 1 := by
  have hcounts : ∀ r ∈ apart, (apart.countP (fun r' => receivedAt r < receivedAt r') = 1 ∧
      apart.countP (fun r' => receivedAt r ≤ receivedAt r') = 2) ∨
      (apart.countP (fun r' => receivedAt r < receivedAt r') = 0 ∧
      apart.countP (fun r' => receivedAt r ≤ receivedAt r') = 1) := by decide
  refine (partition_iff_no_split .sqlite {} (t := apart) (by decide) le_rfl).mpr fun r hr n => ?_
  have hrows : matching .sqlite {} apart = apart := rfl
  rw [hrows] at hr ⊢
  obtain ⟨hbefore, hthrough⟩ | ⟨hbefore, hthrough⟩ := hcounts r hr <;> rw [hbefore, hthrough] <;> omega

def berlin (wallClock : DateTime) : OffsetDateTime := ⟨wallClock, 7200000000, by decide⟩

/-- Ten in Berlin is eight in UTC, and a row received at nine is not listed. -/
theorem list_drops_row :
    ¬ ∀ b, ComparesInstants b { since := some (berlin anHourLater) } [arrival "a" morning] := by
  intro h
  have hwindows := (comparesInstants_iff (by decide)).mp (h .sqlite) _ List.mem_cons_self (by decide)
  exact absurd hwindows (by decide)

theorem list_compares_instants_iff_morning :
    ComparesInstants .sqlite { since := some (berlin morning) } [arrival "a" morning] ∧
      ComparesInstants .postgres { since := some (berlin morning) } [arrival "a" morning] := by
  have hall := (list_compares_instants_iff { since := some (berlin morning) } (t := [arrival "a" morning])
    (by decide)).mpr
    (by decide)
  exact ⟨hall .sqlite, hall .postgres⟩

end SqlComparisonStore

end ShadowProxy
