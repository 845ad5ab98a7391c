import ShadowProxy.Dispatcher.Accounting

/-! How a call of `stop` goes on that cancels no handler. -/

namespace ShadowProxy.InProcessDispatcher

open Data

variable {cfg : DispatcherConfig} {s s' : State} {L : List Label} {l : Label} {i n : ℕ} {r : Str}

def State.Quiet (s : State) : Prop := ∀ w ∈ s.workers, w.job? = none

def State.Settled (s : State) : Prop := ∀ c ∈ s.stops, c.phase = .returned

/-- No handler raises `CancelledError`, `start` and `stop` are not called while a call of `stop` is under way,
and a call of `stop` comes to cancel the workers with no handler running. -/
def Orderly (s : State) : Label → Prop
  | .start => s.Settled
  | .raise _ => False
  | .stop drain => s.Settled ∧ (s.running = true → drain = false ∨ s.queue.unfinished = 0 → s.Quiet)
  | .resume n => (s.stops[n]?).map StopCall.phase = some .woken → s.Quiet
  | _ => True

def Worker.Ending (w : Worker) : Prop := w = ⟨.cancelled, false⟩ ∨ w = ⟨.idle, true⟩

def State.Uncancelled (s : State) : Prop := ∀ w ∈ s.workers, w.cancelRequested = false

structure Tasked (s : State) : Prop where
  valid : ∀ i ∈ s.tasks, i < s.workers.length
  covered : ∀ (i : ℕ) (w : Worker), s.workers[i]? = some w → w.done = false → i ∈ s.tasks

def State.Alive (s : State) : Prop :=
  s.tasks ≠ [] ∧ ∀ i ∈ s.tasks, ∀ w, s.workers[i]? = some w → w.done = false

def State.Others (s : State) (n : ℕ) : Prop := ∀ m c, s.stops[m]? = some c → m ≠ n → c.phase = .returned

inductive Stage (s : State) : Prop
  | settled : s.Settled → s.Uncancelled → (s.running = true → s.Alive) →
      (s.running = false → s.tasks = []) → Stage s
  | waiting (n : ℕ) (c : StopCall) : s.stops[n]? = some c → s.Others n → s.running = false →
      s.Uncancelled → s.Alive →
      c.phase = .joining ∧ s.queue.unfinished ≠ 0 ∨ c.phase = .woken → Stage s
  | cancelling (n k : ℕ) (before : List CandidateJob) : s.stops[n]? = some ⟨.awaiting k, before⟩ → s.Others n →
      s.running = false → s.tasks ≠ [] → (∀ w ∈ s.workers, w.Ending) →
      (∀ j < k, ∀ i, s.tasks[j]? = some i → ∀ w, s.workers[i]? = some w → w.done = true) → Stage s

structure Kept (s s' : State) : Prop where
  running : s'.running = s.running
  tasks : s'.tasks = s.tasks
  length : s'.workers.length = s.workers.length
  stops : Woken s.stops s'.stops
  joining : ∀ c ∈ s'.stops, c.phase = .joining → s'.queue.unfinished ≠ 0
  uncancelled : s.Uncancelled → s'.Uncancelled
  alive : s.Uncancelled → s.Alive → s'.Alive
  ending : (∀ w ∈ s.workers, w.Ending) → ∀ w ∈ s'.workers, w.Ending
  done : ∀ (i : ℕ) (w w' : Worker), s.workers[i]? = some w → s'.workers[i]? = some w' → w.done = true →
    w'.done = true

lemma Accounted.unfinished_enqueue (h : Accounted cfg s) (r : Str) : (s.enqueue cfg r).queue.unfinished ≠ 0 := by
  have hcount := (h.enqueue r).counter
  have hroom := AsyncQueue.room_of_not_full h.maxsize cfg.queueCapacity_pos
  rcases h.enqueue_cases r with ⟨q, hq, he⟩ | ⟨hfull, -, he⟩ | ⟨old, q, s₁, q', -, -, -, -, hput, he⟩ <;>
    rw [he] at hcount ⊢
  · obtain ⟨-, rfl⟩ := AsyncQueue.putNowait_eq_some.mp hq
    exact Nat.succ_ne_zero _
  · intro hzero
    have hlt : s.queue.items.length < cfg.queueCapacity := by
      have hpos := cfg.queueCapacity_pos
      have hempty : s.queue.unfinished = s.queue.items.length + _ := hcount
      have hzero' : s.queue.unfinished = 0 := hzero
      omega
    rw [hroom.mpr hlt] at hfull
    cases hfull
  · obtain ⟨-, rfl⟩ := AsyncQueue.putNowait_eq_some.mp hput
    exact Nat.succ_ne_zero _

lemma kept_enqueue (h : Accounted cfg s) (r : Str) : Kept s (s.enqueue cfg r) := by
  have hcount := h.unfinished_enqueue r
  obtain ⟨q, stops, total, accepted, rejected, evicted, errors, he, hwoken, -⟩ := enqueue_frame cfg s r
  rw [he] at hcount ⊢
  refine ⟨rfl, rfl, rfl, hwoken, fun _ _ _ => hcount, id, fun _ h => h, id, fun i w w' hw hw' hd => ?_⟩
  obtain rfl := Option.some.inj (hw.symm.trans hw')
  exact hd

lemma kept_set {w w' : Worker} (hw : s.workers[i]? = some w) (hworkers : s'.workers = s.workers.set i w')
    (hrun : s'.running = s.running) (htasks : s'.tasks = s.tasks) (hstops : Woken s.stops s'.stops)
    (hjoining : ∀ c ∈ s'.stops, c.phase = .joining → s'.queue.unfinished ≠ 0)
    (huncancelled : w.cancelRequested = false → w'.cancelRequested = false ∧ w'.done = false)
    (hending : w.Ending → w'.Ending) (hdone : w.done = true → w'.done = true) : Kept s s' := by
  have hmem := List.mem_of_getElem? hw
  refine ⟨hrun, htasks, by rw [hworkers, List.length_set], hstops, hjoining, fun hu v hv => ?_, fun hu ha => ⟨?_,
    ?_⟩, fun he v hv => ?_, fun j v v' hv hv' hd => ?_⟩
  · rw [hworkers] at hv
    rcases List.mem_or_eq_of_mem_set hv with hv | rfl
    · exact hu v hv
    · exact (huncancelled (hu w hmem)).1
  · exact htasks ▸ ha.1
  · intro j hj v hv
    rw [hworkers, List.getElem?_set] at hv
    split at hv
    · split at hv
      · obtain rfl := Option.some.inj hv
        exact (huncancelled (hu w hmem)).2
      · cases hv
    · exact ha.2 j (htasks ▸ hj) v hv
  · rw [hworkers] at hv
    rcases List.mem_or_eq_of_mem_set hv with hv | rfl
    · exact he v hv
    · exact hending (he w hmem)
  · rw [hworkers, List.getElem?_set] at hv'
    split at hv'
    · rename_i heq
      subst heq
      obtain rfl := Option.some.inj (hw.symm.trans hv)
      split at hv'
      · obtain rfl := Option.some.inj hv'
        exact hdone hd
      · cases hv'
    · obtain rfl := Option.some.inj (hv.symm.trans hv')
      exact hd

def State.Joins (s : State) : Prop := ∀ c ∈ s.stops, c.phase = .joining → s.queue.unfinished ≠ 0

lemma kept_get (hj : s.Joins) (hs : s.step cfg (.get i) = some s') : Kept s s' := by
  obtain ⟨job, q, hw, hq, rfl⟩ := step_get.mp hs
  obtain ⟨-, -, hun⟩ := AsyncQueue.getNowait_eq_some.mp hq
  refine kept_set hw rfl rfl rfl (.inl rfl) (fun c hc hphase => ?_) (fun _ => ⟨rfl, rfl⟩) ?_ id
  · change q.unfinished ≠ 0
    rw [hun]
    exact hj c hc hphase
  · simp [Worker.Ending]

lemma kept_complete (h : Accounted cfg s) (hs : s.step cfg (.complete i) = some s') : Kept s s' := by
  obtain ⟨job, hw, rfl⟩ := step_complete.mp hs
  obtain ⟨q, -, he⟩ := h.complete_eq hw
  rw [he]
  refine kept_set hw rfl rfl rfl ?_ (fun c hc hphase => ?_) (fun _ => ⟨rfl, rfl⟩) ?_ id
  · rw [Woken]
    split
    · exact .inr rfl
    · exact .inl rfl
  · by_cases hzero : q.unfinished = 0
    · rw [if_pos hzero] at hc
      obtain ⟨c', -, rfl⟩ := List.mem_map.mp hc
      exact absurd hphase (wake_ne c')
    · exact hzero
  · simp [Worker.Ending]

lemma kept_deliver (hj : s.Joins) (hw : s.workers[i]? = some ⟨.idle, true⟩) :
    Kept s (s.setWorker i ⟨.cancelled, false⟩) := by
  refine kept_set hw rfl rfl rfl (.inl rfl) hj ?_ (fun _ => .inl rfl) fun _ => rfl
  simp

lemma Kept.tasked (hk : Kept s s') (h : Tasked s) : Tasked s' where
  valid := by
    intro i hi
    rw [hk.length]
    exact h.valid i (hk.tasks ▸ hi)
  covered := by
    intro i w' hw' hd
    have hlt : i < s.workers.length := hk.length ▸ (List.getElem?_eq_some_iff.mp hw').1
    have hw := List.getElem?_eq_getElem hlt
    rw [hk.tasks]
    apply h.covered i _ hw
    by_contra hdone
    have hdone' := hk.done i _ w' hw hw' (by simpa using hdone)
    rw [hd] at hdone'
    cases hdone'

lemma Woken.getElem? {stops stops' : List StopCall} (h : Woken stops stops') {c' : StopCall}
    (hc : stops'[n]? = some c') : ∃ c, stops[n]? = some c ∧ (c' = c ∨ c' = c.wake) := by
  rcases h with rfl | rfl
  · exact ⟨c', hc, .inl rfl⟩
  · rw [List.getElem?_map, Option.map_eq_some_iff] at hc
    obtain ⟨c, hc, rfl⟩ := hc
    exact ⟨c, hc, .inr rfl⟩

lemma Woken.getElem?_of_ne {stops stops' : List StopCall} (h : Woken stops stops') {c : StopCall}
    (hc : stops[n]? = some c) (hphase : c.phase ≠ .joining) : stops'[n]? = some c := by
  rcases h with rfl | rfl
  · exact hc
  · rw [List.getElem?_map, hc, Option.map_some, wake_of_ne hphase]

lemma Woken.returned {stops stops' : List StopCall} (h : Woken stops stops') {c' : StopCall}
    (hc : stops'[n]? = some c') (hall : ∀ c, stops[n]? = some c → c.phase = .returned) :
    c'.phase = .returned := by
  obtain ⟨c, hc, hwake⟩ := h.getElem? hc
  have hphase := hall c hc
  rcases hwake with rfl | rfl
  · exact hphase
  · rwa [wake_of_ne (by simp [hphase])]

lemma Kept.settled (hk : Kept s s') (h : s.Settled) : s'.Settled := by
  intro c hc
  obtain ⟨n, hn, rfl⟩ := List.mem_iff_getElem.mp hc
  exact hk.stops.returned (List.getElem?_eq_getElem hn) fun c hc => h c (List.mem_of_getElem? hc)

lemma Kept.stage (hk : Kept s s') (h : Stage s) : Stage s' := by
  cases h with
  | settled hsettled hu hrun hstopped =>
    refine .settled (hk.settled hsettled) (hk.uncancelled hu) (fun hr => ?_) fun hr => ?_
    · exact hk.alive hu (hrun (hk.running ▸ hr))
    · rw [hk.tasks]
      exact hstopped (hk.running ▸ hr)
  | waiting n c hc hothers hr hu ha hphase =>
    have hothers' : s'.Others n := fun m c' hm hne => hk.stops.returned hm fun c hc => hothers m c hc hne
    have hlt : n < s'.stops.length := by
      have hlen : s'.stops.length = s.stops.length := by rcases hk.stops with heq | heq <;> simp [heq]
      rw [hlen]
      exact (List.getElem?_eq_some_iff.mp hc).1
    have hc' := List.getElem?_eq_getElem hlt
    refine .waiting n _ hc' hothers' (hk.running.trans hr) (hk.uncancelled hu) (hk.alive hu ha) ?_
    have hphase' : s'.stops[n].phase = .joining ∨ s'.stops[n].phase = .woken := by
      have hold : c.phase = .joining ∨ c.phase = .woken := hphase.imp_left And.left
      obtain ⟨c₀, hc₀, hwake⟩ := hk.stops.getElem? hc'
      obtain rfl := Option.some.inj (hc.symm.trans hc₀)
      rcases hwake with heq | heq <;> rw [heq]
      · exact hold
      · exact (wake_phase c).mpr hold
    exact hphase'.imp_left fun hjoining => ⟨hjoining, hk.joining _ (List.getElem_mem hlt) hjoining⟩
  | cancelling n k before hc hothers hr htasks he hd =>
    have hothers' : s'.Others n := fun m c' hm hne => hk.stops.returned hm fun c hc => hothers m c hc hne
    refine .cancelling n k before (hk.stops.getElem?_of_ne hc (by simp)) hothers' (hk.running.trans hr)
      (hk.tasks ▸ htasks) (hk.ending he) ?_
    intro j hj i hi w' hw'
    have hlt : i < s.workers.length := hk.length ▸ (List.getElem?_eq_some_iff.mp hw').1
    have hw := List.getElem?_eq_getElem hlt
    exact hk.done i _ w' hw hw' (hd j hj i (hk.tasks ▸ hi) _ hw)

lemma Stage.open_of_settled (h : Stage s) (hsettled : s.Settled) :
    s.Uncancelled ∧ (s.running = true → s.Alive) ∧ (s.running = false → s.tasks = []) := by
  cases h with
  | settled _ hu hrun hstopped => exact ⟨hu, hrun, hstopped⟩
  | waiting n c hc hothers hr hu ha hphase =>
    have hreturned := hsettled c (List.mem_of_getElem? hc)
    rcases hphase with ⟨hphase, -⟩ | hphase <;> rw [hphase] at hreturned <;> cases hreturned
  | cancelling n k before hc =>
    have hreturned := hsettled _ (List.mem_of_getElem? hc)
    cases hreturned

lemma Tasked.all_done (h : Tasked s) (htasks : s.tasks = []) : ∀ w ∈ s.workers, w.done = true := by
  intro w hw
  obtain ⟨i, hi, rfl⟩ := List.mem_iff_getElem.mp hw
  by_contra hd
  have hmem := h.covered i _ (List.getElem?_eq_getElem hi) (by simpa using hd)
  rw [htasks] at hmem
  cases hmem

lemma start_stage (ht : Tasked s) (h : Stage s) (hsettled : s.Settled) :
    Tasked (s.start cfg) ∧ Stage (s.start cfg) := by
  obtain ⟨hu, hrun, hstopped⟩ := h.open_of_settled hsettled
  rw [State.start]
  split
  · exact ⟨ht, h⟩
  · rename_i hr
    have htasks := hstopped (by simpa using hr)
    have hpos := cfg.workers_pos
    constructor
    · constructor
      · intro i hi
        simp only [htasks, List.nil_append, List.mem_range'_1] at hi
        simp only [List.length_append, List.length_replicate]
        exact hi.2
      · intro i w hw hd
        simp only [htasks, List.nil_append, List.mem_range'_1]
        have hlt := (List.getElem?_eq_some_iff.mp hw).1
        rw [List.length_append, List.length_replicate] at hlt
        refine ⟨?_, hlt⟩
        by_contra hold
        rw [List.getElem?_append_left (by omega)] at hw
        have hdone := ht.all_done htasks w (List.mem_of_getElem? hw)
        rw [hd] at hdone
        cases hdone
    · refine .settled hsettled ?_ (fun _ => ⟨?_, ?_⟩) fun hr => by cases hr
      · intro w hw
        rcases List.mem_append.mp hw with hw | hw
        · exact hu w hw
        · rw [(List.mem_replicate.mp hw).2]
      · intro hnil
        simp only [List.append_eq_nil_iff, List.range'_eq_nil_iff] at hnil
        omega
      · intro i hi w hw
        simp only [htasks, List.nil_append, List.mem_range'_1] at hi
        rw [List.getElem?_append_right hi.1] at hw
        rw [(List.mem_replicate.mp (List.mem_of_getElem? hw)).2]
        rfl

lemma done_cancel (w : Worker) : w.cancel.done = w.done := by
  obtain ⟨p, c⟩ := w
  cases p <;> rfl

lemma ending_cancelAll (hacc : Accounted cfg s) (ht : Tasked s) (hu : s.Uncancelled) (hq : s.Quiet) :
    ∀ w ∈ s.cancelAll.workers, w.Ending := by
  intro w hw
  obtain ⟨i, hget⟩ := List.mem_iff_getElem?.mp hw
  simp only [State.cancelAll, List.getElem?_mapIdx, Option.map_eq_some_iff] at hget
  obtain ⟨⟨p, c⟩, hv, rfl⟩ := hget
  have hmem := List.mem_of_getElem? hv
  obtain rfl : c = false := hu _ hmem
  cases p with
  | idle =>
    rw [if_pos (List.contains_iff_mem.mpr (ht.covered i _ hv rfl))]
    exact .inr rfl
  | handling job => cases hq _ hmem
  | cancelled =>
    left
    split <;> rfl
  | failed => exact absurd rfl (hacc.noFailed _ hmem)

lemma Tasked.cancelAll (h : Tasked s) : Tasked s.cancelAll where
  valid := by
    intro i hi
    simp only [State.cancelAll, List.length_mapIdx]
    exact h.valid i hi
  covered := by
    intro i w hw hd
    simp only [State.cancelAll, List.getElem?_mapIdx, Option.map_eq_some_iff] at hw
    obtain ⟨v, hv, rfl⟩ := hw
    apply h.covered i v hv
    split at hd
    · rwa [done_cancel] at hd
    · exact hd

lemma Tasked.frame (h : Tasked s) (running : Bool) (stops : List StopCall) :
    Tasked { s with running := running, stops := stops } := ⟨h.valid, h.covered⟩

lemma others_snoc (hsettled : s.Settled) {m : ℕ} {c c' : StopCall} (hm : (s.stops ++ [c'])[m]? = some c)
    (hne : m ≠ s.stops.length) : c.phase = .returned := by
  rw [List.getElem?_append] at hm
  split at hm
  · exact hsettled c (List.mem_of_getElem? hm)
  · rename_i hlt
    have hlt' := (List.getElem?_eq_some_iff.mp hm).1
    simp only [List.length_singleton] at hlt'
    omega

lemma stop_stage {drain : Bool} (hacc : Accounted cfg s) (ht : Tasked s) (h : Stage s) (hsettled : s.Settled)
    (hq : s.running = true → drain = false ∨ s.queue.unfinished = 0 → s.Quiet) :
    Tasked (s.stop drain) ∧ Stage (s.stop drain) := by
  obtain ⟨hu, halive, hstopped⟩ := h.open_of_settled hsettled
  rcases stop_cases s drain with ⟨hr, he⟩ | ⟨hr, -, hcount, he⟩ | ⟨hr, hnow, he⟩ <;> rw [he]
  · refine ⟨ht.frame _ _, .settled ?_ hu halive hstopped⟩
    intro c hc
    rcases List.mem_append.mp hc with hc | hc
    · exact hsettled c hc
    · rw [List.mem_singleton.mp hc]
  · refine ⟨ht.frame _ _, .waiting s.stops.length ⟨.joining, s.accepted⟩ ?_ ?_ rfl hu (halive hr)
      (.inl ⟨rfl, hcount⟩)⟩
    · simp
    · exact fun m c hm hne => others_snoc hsettled hm hne
  · refine ⟨ht.cancelAll.frame _ _, .cancelling s.stops.length 0 s.accepted ?_ ?_ rfl (halive hr).1 ?_ ?_⟩
    · simp
    · exact fun m c hm hne => others_snoc hsettled hm hne
    · exact ending_cancelAll hacc ht hu (hq hr hnow)
    · intro j hj
      omega

lemma others_set {s : State} {c : StopCall} (hothers : s.Others n) {m : ℕ} {c' : StopCall}
    (hm : (s.stops.set n c)[m]? = some c') (hne : m ≠ n) : c'.phase = .returned := by
  rw [List.getElem?_set_ne (Ne.symm hne)] at hm
  exact hothers m c' hm hne

lemma Tasked.all_awaited {k : ℕ} (h : Tasked s) (hk : s.tasks[k]? = none)
    (hd : ∀ j < k, ∀ i, s.tasks[j]? = some i → ∀ w, s.workers[i]? = some w → w.done = true) :
    ∀ w ∈ s.workers, w.done = true := by
  intro w hw
  obtain ⟨i, hi, rfl⟩ := List.mem_iff_getElem.mp hw
  have hget := List.getElem?_eq_getElem hi
  by_contra hnot
  obtain ⟨j, hj, heq⟩ := List.mem_iff_getElem.mp (h.covered i _ hget (by simpa using hnot))
  have hlt : j < k := lt_of_lt_of_le hj (List.getElem?_eq_none_iff.mp hk)
  exact hnot (hd j hlt i (heq ▸ List.getElem?_eq_getElem hj) _ hget)

lemma resume_stage (hacc : Accounted cfg s) (ht : Tasked s) (h : Stage s) (hq : Orderly s (.resume n))
    (hs : s.step cfg (.resume n) = some s') : Tasked s' ∧ Stage s' := by
  have hone : ∀ {m c before phase}, s.stops[m]? = some c → s.Others m → s.stops[n]? = some ⟨phase, before⟩ →
      phase ≠ .returned → c = ⟨phase, before⟩ ∧ m = n := by
    intro m c before phase hm hothers hn hphase
    by_cases heq : n = m
    · subst heq
      exact ⟨Option.some.inj (hm.symm.trans hn), rfl⟩
    · exact absurd (hothers n _ hn heq) hphase
  have hlt : ∀ {c}, s.stops[n]? = some c → n < s.stops.length := fun hc => (List.getElem?_eq_some_iff.mp hc).1
  obtain ⟨before, ⟨hn, rfl⟩ | ⟨k, hn, hgoes⟩⟩ := step_resume.mp hs
  · cases h with
    | settled hsettled => cases hsettled _ (List.mem_of_getElem? hn)
    | waiting m c hc hothers hr hu ha hphase =>
      obtain ⟨rfl, rfl⟩ := hone hc hothers hn (by simp)
      have hquiet := hq (by rw [hn]; rfl)
      refine ⟨ht.cancelAll.frame _ _, .cancelling m 0 before ?_ ?_ hr ha.1 (ending_cancelAll hacc ht hu hquiet) ?_⟩
      · exact List.getElem?_set_self (hlt hn)
      · exact fun _ _ hm hne => others_set hothers hm hne
      · intro j hj
        omega
    | cancelling m k before hc hothers =>
      obtain ⟨heq, -⟩ := hone hc hothers hn (by simp)
      cases heq
  · cases h with
    | settled hsettled => cases hsettled _ (List.mem_of_getElem? hn)
    | waiting m c hc hothers hr hu ha hphase =>
      obtain ⟨rfl, -⟩ := hone hc hothers hn (by simp)
      rcases hphase with ⟨hphase, -⟩ | hphase <;> cases hphase
    | cancelling m k' before' hc hothers hr htasks he hd =>
      obtain ⟨heq, rfl⟩ := hone hc hothers hn (by simp)
      cases heq
      rcases hgoes with ⟨htask, rfl⟩ | ⟨i, c, htask, ⟨hw, rfl⟩ | ⟨hw, rfl⟩⟩
      · have hdone := ht.all_awaited htask hd
        refine ⟨⟨fun i hi => (by cases hi), fun i w hw hlive => ?_⟩, .settled ?_ ?_ ?_ fun _ => rfl⟩
        · have hdone' := hdone w (List.mem_of_getElem? hw)
          rw [hlive] at hdone'
          cases hdone'
        · intro c hc
          obtain ⟨j, hj, rfl⟩ := List.mem_iff_getElem.mp hc
          have hget := List.getElem?_eq_getElem hj
          by_cases hjm : j = m
          · subst hjm
            rw [← Option.some.inj ((List.getElem?_set_self (hlt hn)).symm.trans hget)]
          · exact others_set hothers hget hjm
        · intro w hw
          rcases he w hw with rfl | rfl
          · rfl
          · cases hdone _ hw
        · intro hr'
          have hr'' : s.running = true := hr'
          rw [hr] at hr''
          cases hr''
      · refine ⟨ht.frame _ _, .cancelling m (k + 1) before ?_ ?_ hr htasks he ?_⟩
        · exact List.getElem?_set_self (hlt hn)
        · exact fun _ _ hm hne => others_set hothers hm hne
        · intro j hj i' hi' w hw'
          rcases Nat.lt_succ_iff_lt_or_eq.mp hj with hj | rfl
          · exact hd j hj i' hi' w hw'
          · obtain rfl := Option.some.inj (htask.symm.trans hi')
            obtain rfl := Option.some.inj (hw.symm.trans hw')
            rfl
      · exact absurd rfl (hacc.noFailed _ (List.mem_of_getElem? hw))

structure Sound (cfg : DispatcherConfig) (s : State) : Prop where
  accounted : Accounted cfg s
  tasked : Tasked s
  stage : Stage s

lemma sound_initial (cfg : DispatcherConfig) : Sound cfg (State.initial cfg) where
  accounted := accounted_initial cfg
  tasked := ⟨fun i hi => (by cases hi), fun i w hw => (by cases hw)⟩
  stage := .settled (fun c hc => (by cases hc)) (fun w hw => (by cases hw)) (fun hr => (by cases hr)) fun _ => rfl

lemma State.Others.eq_or {c c' : StopCall} (h : s.Others n) (hn : s.stops[n]? = some c) (hc : c' ∈ s.stops) :
    c' = c ∨ c'.phase = .returned := by
  obtain ⟨m, hm⟩ := List.mem_iff_getElem?.mp hc
  by_cases hmn : m = n
  · subst hmn
    exact .inl (Option.some.inj (hm.symm.trans hn))
  · exact .inr (h m c' hm hmn)

lemma Stage.phase (h : Stage s) {c : StopCall} (hc : c ∈ s.stops) : c.phase = .returned ∨
    c.phase = .joining ∧ s.queue.unfinished ≠ 0 ∨ c.phase = .woken ∨ ∃ k, c.phase = .awaiting k := by
  cases h with
  | settled hsettled => exact .inl (hsettled c hc)
  | waiting n c' hn hothers hr hu ha hwaits =>
    rcases hothers.eq_or hn hc with rfl | hphase
    · rcases hwaits with hwaits | hwaits
      · exact .inr (.inl hwaits)
      · exact .inr (.inr (.inl hwaits))
    · exact .inl hphase
  | cancelling n k before hn hothers =>
    rcases hothers.eq_or hn hc with rfl | hphase
    · exact .inr (.inr (.inr ⟨k, rfl⟩))
    · exact .inl hphase

lemma Stage.joins (h : Stage s) : s.Joins := by
  intro c hc hphase
  have hcases := h.phase hc
  simp only [hphase] at hcases
  simpa using hcases

lemma Stage.deliver (h : Stage s) {job : CandidateJob} : s.workers[i]? ≠ some ⟨.handling job, true⟩ := by
  intro hw
  have hmem := List.mem_of_getElem? hw
  cases h with
  | settled _ hu => cases hu _ hmem
  | waiting n c hn hothers hr hu => cases hu _ hmem
  | cancelling n k before hn hothers hr htasks he => rcases he _ hmem with heq | heq <;> cases heq

lemma Sound.abandons (h : Sound cfg s) (hc : Orderly s l) (hs : s.step cfg l = some s') :
    s.abandons l = false := by
  cases l with
  | raise i => exact hc.elim
  | deliver i =>
    rcases step_deliver.mp hs with ⟨hw, -⟩ | ⟨⟨job, hw⟩, -⟩
    · simp [State.abandons, hw, Worker.job?]
    · exact absurd hw h.stage.deliver
  | _ => rfl

lemma Sound.of_kept (h : Sound cfg s) (hk : Kept s s') : Tasked s' ∧ Stage s' :=
  ⟨hk.tasked h.tasked, hk.stage h.stage⟩

theorem Sound.step (h : Sound cfg s) (hc : Orderly s l) (hs : s.step cfg l = some s') : Sound cfg s' := by
  have hacc := accounted_step h.accounted (h.abandons hc hs) hs
  suffices hstage : Tasked s' ∧ Stage s' from ⟨hacc, hstage.1, hstage.2⟩
  cases l with
  | start =>
    obtain rfl := Option.some.inj hs
    exact start_stage h.tasked h.stage hc
  | enqueue r =>
    obtain rfl := Option.some.inj hs
    exact h.of_kept (kept_enqueue h.accounted r)
  | get i => exact h.of_kept (kept_get h.stage.joins hs)
  | complete i => exact h.of_kept (kept_complete h.accounted hs)
  | raise i => exact hc.elim
  | deliver i =>
    rcases step_deliver.mp hs with ⟨hw, rfl⟩ | ⟨⟨job, hw⟩, -⟩
    · exact h.of_kept (kept_deliver h.stage.joins hw)
    · exact absurd hw h.stage.deliver
  | stop drain =>
    obtain rfl := Option.some.inj hs
    exact stop_stage h.accounted h.tasked h.stage hc.1 hc.2
  | resume n => exact resume_stage h.accounted h.tasked h.stage hc hs

end ShadowProxy.InProcessDispatcher
