import Debugger.Breakpoint.Registry
import Debugger.Proofs.Calls
import Debugger.Proofs.Target

/-!
Requests: what creating, switching and deleting them makes of the target.
-/

namespace Debugger

namespace Target

/-- The target with some of its requests switched on or off. -/
def switch (t : Target) (ids : List RequestId) (enabled : Bool) : Target :=
  { t with requests := t.requests.map fun q => if q.id ∈ ids then { q with enabled } else q }

/-- The target without some of its requests and subscriptions. -/
def without (t : Target) (ids : List RequestId) : Target :=
  { t with
    requests := t.requests.filter (·.id ∉ ids)
    subscriptions := t.subscriptions.filter (·.1 ∉ ids) }

variable {t t' : Target}

theorem createRequest_ok {location : Location} {id : RequestId}
    (h : t.createRequest location = .ok (id, t')) :
    id = t.lastRequest + 1 ∧
      t' = { t with lastRequest := id, requests := t.requests ++ [⟨id, location, true⟩] } := by
  simp only [createRequest, checkType, checkConnected, bind, Except.bind] at h
  split at h
  · contradiction
  · cases h
    exact ⟨rfl, rfl⟩

theorem createRequest_of_type {location : Location} {e : TypeEntry} (hc : t.connected = true)
    (he : t.type? location.type = some e) :
    t.createRequest location = .ok (t.lastRequest + 1, { t with
      lastRequest := t.lastRequest + 1
      requests := t.requests ++ [⟨t.lastRequest + 1, location, true⟩] }) := by
  simp only [createRequest, checkType, checkConnected, hc, he]
  rfl

/-! ### Switching -/

theorem switch_nil (t : Target) (enabled : Bool) : t.switch [] enabled = t := by
  simp [switch]

theorem switch_switch (t : Target) (ids more : List RequestId) (enabled : Bool) :
    (t.switch ids enabled).switch more enabled = t.switch (ids ++ more) enabled := by
  simp only [switch, List.map_map, Target.mk.injEq, true_and, and_true]
  apply List.map_congr_left
  intro q _
  simp only [Function.comp_apply, List.mem_append]
  by_cases hi : q.id ∈ ids <;> by_cases hm : q.id ∈ more <;> simp [hi, hm]

theorem switch_of_not_mem {ids : List RequestId} (enabled : Bool)
    (h : ∀ q ∈ t.requests, q.id ∉ ids) : t.switch ids enabled = t := by
  have hmap : t.requests.map (fun q => if q.id ∈ ids then { q with enabled } else q) =
      t.requests :=
    (List.map_congr_left fun q hq => if_neg (h q hq)).trans (List.map_id' _)
  rw [switch, hmap]

/-- Of all requests only the newest is switched off. -/
theorem Sound.switch_newest (hs : t.Sound) (location : Location) :
    switch { t with
      lastRequest := t.lastRequest + 1
      requests := t.requests ++ [⟨t.lastRequest + 1, location, true⟩] } [t.lastRequest + 1] false =
      { t with
        lastRequest := t.lastRequest + 1
        requests := t.requests ++ [⟨t.lastRequest + 1, location, false⟩] } := by
  have hold : ∀ q ∈ t.requests, q.id ∉ [t.lastRequest + 1] := by
    intro q hq he
    have hle := hs.request_le hq
    rw [List.mem_singleton.mp he] at hle
    exact Nat.not_succ_le_self _ hle
  have hstay := congrArg Target.requests (switch_of_not_mem false hold)
  simp only [switch] at hstay
  rw [switch, List.map_append, hstay]
  simp

theorem setRequestEnabled_ok {id : RequestId} {enabled : Bool}
    (h : t.setRequestEnabled id enabled = .ok t') : t' = t.switch [id] enabled := by
  simp only [setRequestEnabled, bind, Except.bind] at h
  split at h
  · contradiction
  · split at h
    · contradiction
    · cases h
      simp [switch]

theorem request?_isNone {id : RequestId} :
    (t.request? id).isNone = true ↔ ∀ q ∈ t.requests, q.id ≠ id := by
  simp [request?]

/-- A request that is there can be switched; of one that is not, the target says so. -/
theorem setRequestEnabled_of_connected (hc : t.connected = true) (id : RequestId) (enabled : Bool) :
    t.setRequestEnabled id enabled = .ok (t.switch [id] enabled) ∨
      (∀ q ∈ t.requests, q.id ≠ id) ∧
        t.setRequestEnabled id enabled = .error (.invalidRequest id) := by
  have hk : t.checkConnected = .ok () := by rw [checkConnected, if_pos hc]
  cases hf : (t.request? id).isNone with
  | true =>
    refine .inr ⟨request?_isNone.mp hf, ?_⟩
    simp only [setRequestEnabled, hk, hf, ↓reduceIte]
    rfl
  | false =>
    left
    simp only [setRequestEnabled, hk, hf, Bool.false_eq_true, ↓reduceIte, switch,
      List.mem_singleton]
    rfl

theorem switch_requestNumbers (t : Target) (ids : List RequestId) (enabled : Bool) :
    (t.switch ids enabled).requestNumbers = t.requestNumbers := by
  simp only [requestNumbers, switch, List.map_map]
  congr 1
  apply List.map_congr_left
  intro q _
  simp only [Function.comp_apply]
  split <;> rfl

theorem Sound.switch (h : t.Sound) (ids : List RequestId) (enabled : Bool) :
    (t.switch ids enabled).Sound :=
  ⟨h.ordered, h.issued, by rw [switch_requestNumbers]; exact h.distinct,
    by rw [switch_requestNumbers]; exact h.requested⟩

/-! ### Deleting -/

theorem without_nil (t : Target) : t.without [] = t := by
  simp [without]

theorem without_without (t : Target) (ids more : List RequestId) :
    (t.without ids).without more = t.without (ids ++ more) := by
  simp [without, List.filter_filter, Bool.and_comm]

theorem Sound.without (h : t.Sound) (ids : List RequestId) : (t.without ids).Sound := by
  have hsub : (t.without ids).requestNumbers.Sublist t.requestNumbers :=
    (List.filter_sublist.map _).append (List.filter_sublist.map _)
  exact ⟨h.ordered, h.issued, hsub.nodup h.distinct, fun n hn => h.requested n (hsub.subset hn)⟩

/-- A request of the number goes, or, where there is none, a subscription. -/
theorem deleteRequest_cases {id : RequestId} (h : t.deleteRequest id = .ok t') :
    (∃ q ∈ t.requests, q.id = id) ∧ t' = { t with requests := t.requests.filter (·.id ≠ id) } ∨
      (∀ q ∈ t.requests, q.id ≠ id) ∧
        t' = { t with subscriptions := t.subscriptions.filter (·.1 ≠ id) } := by
  simp only [deleteRequest, bind, Except.bind] at h
  split at h
  · contradiction
  · split at h
    · rename_i hr
      cases h
      exact .inl ⟨by simpa [request?] using hr, rfl⟩
    · rename_i hr
      split at h
      · cases h
        exact .inr ⟨request?_isNone.mp (by simpa using hr), rfl⟩
      · contradiction

/-- A number is of a request or of a subscription, so it deletes at most one of both. -/
theorem deleteRequest_ok (hs : t.Sound) {id : RequestId} (h : t.deleteRequest id = .ok t') :
    t' = t.without [id] := by
  rcases deleteRequest_cases h with ⟨⟨q, hq, rfl⟩, rfl⟩ | ⟨hno, rfl⟩
  · have hsubs : t.subscriptions.filter (·.1 ∉ [q.id]) = t.subscriptions :=
      List.filter_eq_self.mpr fun s hsub => by simpa using (hs.request_ne hq hsub).symm
    rw [without, hsubs]
    simp
  · have hreqs : t.requests.filter (·.id ∉ [id]) = t.requests :=
      List.filter_eq_self.mpr fun q hq => by simpa using hno q hq
    rw [without, hreqs]
    simp

/-- What is there can be deleted; what is not there is not there afterwards either. -/
theorem deleteRequest_of_connected (hc : t.connected = true) (id : RequestId) :
    (∃ t', t.deleteRequest id = .ok t') ∨ t.without [id] = t := by
  have hk : t.checkConnected = .ok () := by rw [checkConnected, if_pos hc]
  by_cases hr : (t.request? id).isSome = true
  · left
    simp only [deleteRequest, hk, hr, bind, Except.bind, ↓reduceIte]
    exact ⟨_, rfl⟩
  · by_cases hs : t.subscriptions.any (·.1 = id) = true
    · left
      simp only [deleteRequest, hk, hr, hs, bind, Except.bind, ↓reduceIte]
      exact ⟨_, rfl⟩
    · right
      have hreqs : t.requests.filter (·.id ∉ [id]) = t.requests := by
        refine List.filter_eq_self.mpr fun q hq => ?_
        simpa using request?_isNone.mp (by simpa using hr) q hq
      have hsubs : t.subscriptions.filter (·.1 ∉ [id]) = t.subscriptions := by
        refine List.filter_eq_self.mpr fun s hsub => ?_
        simpa using fun he => hs (List.any_eq_true.mpr ⟨s, hsub, by simpa using he⟩)
      rw [without, hreqs, hsubs]

/-! ### Subscriptions -/

/-- Deleting requests ends no subscription. -/
theorem without_subscriptions (hs : t.Sound) {ids : List RequestId}
    (h : ∀ id ∈ ids, ∃ q ∈ t.requests, q.id = id) :
    (t.without ids).subscriptions = t.subscriptions := by
  refine List.filter_eq_self.mpr fun s hsub => ?_
  have hno : s.1 ∉ ids := by
    intro hm
    obtain ⟨q, hq, hid⟩ := h s.1 hm
    exact hs.request_ne hq hsub hid
  simpa using hno

/-- Ending subscriptions deletes no request. -/
theorem without_requests (hs : t.Sound) {ids : List RequestId}
    (h : ∀ id ∈ ids, ∃ s ∈ t.subscriptions, s.1 = id) :
    (t.without ids).requests = t.requests := by
  refine List.filter_eq_self.mpr fun q hq => ?_
  have hno : q.id ∉ ids := by
    intro hm
    obtain ⟨s, hsub, hid⟩ := h q.id hm
    exact hs.request_ne hq hsub hid.symm
  simpa using hno

theorem subscribeLoads_ok {filter : String} {id : RequestId}
    (h : t.subscribeLoads filter = .ok (id, t')) :
    t' = { t with
      lastRequest := t.lastRequest + 1
      subscriptions := t.subscriptions ++ [(id, filter)] } ∧ id = t.lastRequest + 1 := by
  simp only [subscribeLoads, bind, Except.bind] at h
  split at h
  · contradiction
  · cases h
    exact ⟨rfl, rfl⟩

theorem Sound.subscribe (hs : t.Sound) (filter : String) :
    Sound { t with
      lastRequest := t.lastRequest + 1
      subscriptions := t.subscriptions ++ [(t.lastRequest + 1, filter)] } := by
  have hnumbers : requestNumbers { t with
      lastRequest := t.lastRequest + 1
      subscriptions := t.subscriptions ++ [(t.lastRequest + 1, filter)] } =
        t.requestNumbers ++ [t.lastRequest + 1] := by
    simp [requestNumbers]
  refine ⟨hs.ordered, hs.issued, ?_, ?_⟩
  · rw [hnumbers]
    refine List.nodup_append.mpr ⟨hs.distinct, by simp, ?_⟩
    rintro n hn m hm rfl
    have hle := hs.requested n hn
    rw [List.mem_singleton.mp hm] at hle
    exact Nat.not_succ_le_self _ hle
  · intro n hn
    rw [hnumbers] at hn
    rcases List.mem_append.mp hn with hn | hn
    · exact Nat.le_succ_of_le (hs.requested n hn)
    · exact Nat.le_of_eq (List.mem_singleton.mp hn)

end Target

/-! ### New requests -/

/-- Calls that added requests, in this order, and did nothing else. -/
structure Link.Adds (l l' : Link) (news : List Request) : Prop where
  target : l'.target = { l.target with
    lastRequest := l.target.lastRequest + news.length
    requests := l.target.requests ++ news }
  refuses : l'.refuses = l.refuses
  numbers : news.map (·.id) = List.range' (l.target.lastRequest + 1) news.length

namespace Link.Adds

variable {l l' l'' : Link} {news more : List Request}

theorem nothing (ht : l'.target = l.target) (hr : l'.refuses = l.refuses) : l.Adds l' [] :=
  ⟨by simp [ht], hr, rfl⟩

theorem trans (h : l.Adds l' news) (h' : l'.Adds l'' more) : l.Adds l'' (news ++ more) := by
  refine ⟨?_, h'.refuses.trans h.refuses, ?_⟩
  · rw [h'.target, h.target]
    simp [Nat.add_assoc]
  · rw [List.map_append, h.numbers, h'.numbers, h.target, List.length_append,
      Nat.add_right_comm l.target.lastRequest, List.range'_append_1]

/-- A call that changed nothing came before. -/
theorem counted (h : l.counted.Adds l' news) : l.Adds l' news :=
  ⟨h.target, h.refuses, h.numbers⟩

theorem type? (h : l.Adds l' news) (id : TypeId) : l'.target.type? id = l.target.type? id := by
  rw [h.target]
  rfl

theorem target_eq (h : l.Adds l' []) : l'.target = l.target := by
  rw [h.target]
  simp

theorem requests (h : l.Adds l' news) : l'.target.requests = l.target.requests ++ news := by
  rw [h.target]

theorem lastRequest (h : l.Adds l' news) :
    l'.target.lastRequest = l.target.lastRequest + news.length := by
  rw [h.target]

theorem connected (h : l.Adds l' news) : l'.target.connected = l.target.connected := by
  rw [h.target]

theorem reliable (h : l.Adds l' news) (hl : l.Reliable) : l'.Reliable :=
  hl.of_eq (h.connected.trans hl.connected) h.refuses

theorem fresh (h : l.Adds l' news) {q : Request} (hq : q ∈ news) :
    l.target.lastRequest < q.id ∧ q.id ≤ l'.target.lastRequest := by
  have hm : q.id ∈ news.map (·.id) := List.mem_map.mpr ⟨q, hq, rfl⟩
  rw [h.numbers] at hm
  rw [h.lastRequest]
  obtain ⟨hl, hu⟩ := List.mem_range'_1.mp hm
  exact ⟨hl, Nat.le_of_lt_succ (by rwa [Nat.succ_eq_add_one, Nat.add_right_comm])⟩

theorem nodup (h : l.Adds l' news) : (news.map (·.id)).Nodup := by
  rw [h.numbers]
  exact List.nodup_range'

theorem sound (h : l.Adds l' news) (hs : l.target.Sound) : l'.target.Sound := by
  have hnumbers : l'.target.requestNumbers =
      (l.target.requests.map (·.id) ++ news.map (·.id)) ++ l.target.subscriptions.map (·.1) := by
    rw [Target.requestNumbers, h.target, List.map_append]
  have hperm : l'.target.requestNumbers.Perm (l.target.requestNumbers ++ news.map (·.id)) := by
    rw [hnumbers, Target.requestNumbers, List.append_assoc, List.append_assoc]
    exact List.Perm.append_left _ List.perm_append_comm
  have hold (n : RequestId) (hn : n ∈ l.target.requestNumbers) (hm : n ∈ news.map (·.id)) :
      False := by
    obtain ⟨q, hq, rfl⟩ := List.mem_map.mp hm
    exact Nat.not_le_of_lt (h.fresh hq).1 (hs.requested q.id hn)
  refine ⟨?_, ?_, ?_, ?_⟩
  · rw [h.target]
    exact hs.ordered
  · rw [h.target]
    exact hs.issued
  · exact hperm.nodup_iff.mpr (List.nodup_append.mpr ⟨hs.distinct, h.nodup, fun n hn m hm he =>
      hold n hn (he ▸ hm)⟩)
  · intro n hn
    rw [h.lastRequest]
    rcases List.mem_append.mp (hperm.mem_iff.mp hn) with hm | hm
    · exact Nat.le_trans (hs.requested n hm) (Nat.le_add_right _ _)
    · obtain ⟨q, hq, rfl⟩ := List.mem_map.mp hm
      have := (h.fresh hq).2
      rwa [h.lastRequest] at this

end Link.Adds

/-! ### Series of calls -/

namespace Registry

/-- Deletions that are refused leave their requests behind, and change nothing else. -/
theorem deleteRequests_run {l : Link} (hs : l.target.Sound) (ids : List RequestId) :
    ∃ gone ⊆ ids, (deleteRequests ids l).2.target = l.target.without gone ∧
      (deleteRequests ids l).2.refuses = l.refuses ∧ (l.Reliable → gone = ids) := by
  induction ids generalizing l with
  | nil => exact ⟨[], List.Subset.refl _, (Target.without_nil _).symm, rfl, fun _ => rfl⟩
  | cons id ids ih =>
    simp only [deleteRequests, OverLink.bind_run, OverLink.discard_run, Remote.deleteRequest,
      Link.orderOnly_result?]
    cases ha : l.answer .deleteRequest (·.deleteRequest id) with
    | ok t =>
      obtain rfl := Target.deleteRequest_ok hs (Link.answer_ok ha)
      obtain ⟨gone, hsub, ht, hr, hall⟩ :=
        ih (l := { l.counted with target := l.target.without [id] }) (hs.without [id])
      refine ⟨id :: gone, List.cons_subset_cons id hsub, ?_, hr, ?_⟩
      · rw [ht, Target.without_without]
        rfl
      · intro hl
        rw [hall (hl.of_eq hl.connected rfl)]
    | error fault =>
      obtain ⟨gone, hsub, ht, hr, hall⟩ := ih (l := l.counted) hs
      by_cases hl : l.Reliable
      · have hgone : l.target.without [id] = l.target := by
          rcases Target.deleteRequest_of_connected hl.connected id with ⟨t, hok⟩ | hno
          · rw [hl.answer, hok] at ha
            contradiction
          · exact hno
        refine ⟨id :: gone, List.cons_subset_cons id hsub, ?_, hr, fun _ => ?_⟩
        · rw [ht, Link.counted_target, ← List.singleton_append, ← Target.without_without, hgone]
        · rw [hall (hl.of_eq hl.connected rfl)]
      · exact ⟨gone, List.subset_cons_of_subset id hsub, ht, hr, fun h => absurd h hl⟩

/-- A series of switches that fails has switched the first few requests. -/
theorem switchRequests_run (enabled : Bool) (ids : List RequestId) (l : Link) :
    ∃ done ⊆ ids, (switchRequests enabled ids l).2.target = l.target.switch done enabled ∧
      (switchRequests enabled ids l).2.refuses = l.refuses ∧
      (l.Reliable → (switchRequests enabled ids l).1 = .ok () ∧ done = ids) := by
  induction ids generalizing l with
  | nil => exact ⟨[], List.Subset.refl _, (Target.switch_nil _ _).symm, rfl, fun _ => ⟨rfl, rfl⟩⟩
  | cons id ids ih =>
    simp only [switchRequests, OverLink.bind_run, Remote.setRequestEnabled, Link.orderOnly_outcome]
    cases ha : l.answer .setRequestEnabled (·.setRequestEnabled id enabled) with
    | ok t =>
      obtain rfl := Target.setRequestEnabled_ok (Link.answer_ok ha)
      obtain ⟨done, hsub, ht, hr, hall⟩ :=
        ih { l.counted with target := l.target.switch [id] enabled }
      refine ⟨id :: done, List.cons_subset_cons id hsub, ?_, hr, ?_⟩
      · rw [ht, Target.switch_switch]
        rfl
      · intro hl
        obtain ⟨hok, hd⟩ := hall (hl.of_eq hl.connected rfl)
        exact ⟨hok, by rw [hd]⟩
    | error fault =>
      by_cases hl : l.Reliable
      · rcases Target.setRequestEnabled_of_connected hl.connected id enabled with hok | ⟨hno, he⟩
        · rw [hl.answer, hok] at ha
          contradiction
        · rw [hl.answer, he] at ha
          obtain rfl : Fault.invalidRequest id = fault := Except.error.inj ha
          obtain ⟨done, hsub, ht, hr, hall⟩ := ih l.counted
          obtain ⟨hok, hd⟩ := hall (hl.of_eq hl.connected rfl)
          refine ⟨id :: done, List.cons_subset_cons id hsub, ?_, hr, fun _ => ⟨hok, by rw [hd]⟩⟩
          have hstay : l.target.switch [id] enabled = l.target :=
            Target.switch_of_not_mem enabled fun q hq => by simpa using hno q hq
          rw [← List.singleton_append, ← Target.switch_switch, hstay]
          exact ht
      · cases hstale : fault.isStale with
        | true =>
          obtain ⟨done, hsub, ht, hr, -⟩ := ih l.counted
          simp only [hstale, ↓reduceIte]
          exact ⟨done, List.subset_cons_of_subset id hsub, ht, hr, fun h => absurd h hl⟩
        | false =>
          simp only [hstale, Bool.false_eq_true, ↓reduceIte]
          exact ⟨[], by simp, (Target.switch_nil _ _).symm, rfl, fun h => absurd h hl⟩

end Registry

end Debugger
