import Debugger.Proofs.Bookkeeping

/-!
What lasts. Breakpoints keep their ids and what they ask for, ids and request numbers are never
given out twice, and the owner of a request does not change.
-/

namespace Debugger

/-- The same breakpoint later on. -/
structure Breakpoint.Ages (b b' : Breakpoint) : Prop where
  id : b'.id = b.id
  site : b'.site = b.site
  requests : b.requests ⊆ b'.requests
  attached : b.attached ⊆ b'.attached
  resolved : b.resolution = .resolved → b'.resolution = .resolved

theorem Breakpoint.Ages.refl (b : Breakpoint) : b.Ages b :=
  ⟨rfl, rfl, fun _ h => h, fun _ h => h, fun h => h⟩

theorem Breakpoint.Ages.trans {b b' b'' : Breakpoint} (h : b.Ages b') (h' : b'.Ages b'') :
    b.Ages b'' :=
  ⟨h'.id.trans h.id, h'.site.trans h.site, List.Subset.trans h.requests h'.requests,
    List.Subset.trans h.attached h'.attached, fun hr => h'.resolved (h.resolved hr)⟩

namespace Registry

/-- What was registered and numbered before stays so or goes for good. Types stay, and a target
that is gone does not come back. -/
structure Follows (s s' : Registry × Link) : Prop where
  settings : s'.1.settings = s.1.settings
  nextId : s.1.nextId ≤ s'.1.nextId
  breakpoints : ∀ b' ∈ s'.1.breakpoints, b'.id < s.1.nextId → ∃ b ∈ s.1.breakpoints, b.Ages b'
  lastRequest : s.2.target.lastRequest ≤ s'.2.target.lastRequest
  owners : ∀ o ∈ s'.1.owners, o.1 ≤ s.2.target.lastRequest → o ∈ s.1.owners
  subscriptions : s'.2.target.subscriptions = s.2.target.subscriptions
  types : ∀ {id e}, s.2.target.type? id = some e →
    ∃ e', s'.2.target.type? id = some e' ∧ e.Becomes e'
  connected : s'.2.target.connected = true → s.2.target.connected = true
  refuses : s'.2.refuses = s.2.refuses

theorem Follows.refl (s : Registry × Link) : Follows s s :=
  ⟨rfl, Nat.le_refl _, fun b hb _ => ⟨b, hb, .refl b⟩, Nat.le_refl _, fun _ h _ => h, rfl,
    fun h => ⟨_, h, rfl, fun h => h⟩, fun h => h, rfl⟩

theorem Follows.trans {s s' s'' : Registry × Link} (h : Follows s s') (h' : Follows s' s'') :
    Follows s s'' := by
  refine ⟨h'.settings.trans h.settings, Nat.le_trans h.nextId h'.nextId, ?_,
    Nat.le_trans h.lastRequest h'.lastRequest, ?_, h'.subscriptions.trans h.subscriptions, ?_,
    fun hc => h.connected (h'.connected hc), h'.refuses.trans h.refuses⟩
  · intro b'' hb'' hlt
    obtain ⟨b', hb', ha'⟩ := h'.breakpoints b'' hb'' (Nat.lt_of_lt_of_le hlt h.nextId)
    obtain ⟨b, hb, ha⟩ := h.breakpoints b' hb' (by rwa [← ha'.id])
    exact ⟨b, hb, ha.trans ha'⟩
  · intro o ho hle
    exact h.owners o (h'.owners o ho (Nat.le_trans hle h.lastRequest)) hle
  · intro id e he
    obtain ⟨e', he', hb⟩ := h.types he
    obtain ⟨e'', he'', hb'⟩ := h'.types he'
    exact ⟨e'', he'', by rw [hb'.same, hb.same], fun hl => hb'.loaded (hb.loaded hl)⟩

theorem Follows.reliable {s s' : Registry × Link} (h : Follows s s') (hl : s'.2.Reliable) :
    s.2.Reliable :=
  hl.of_eq (h.connected hl.connected) h.refuses.symm

/-- A step of the registry alone. -/
theorem Follows.of_registry {r r' : Registry} {l : Link} (hsettings : r'.settings = r.settings)
    (hnext : r.nextId ≤ r'.nextId)
    (hbs : ∀ b' ∈ r'.breakpoints, b'.id < r.nextId → ∃ b ∈ r.breakpoints, b.Ages b')
    (howners : r'.owners ⊆ r.owners) : Follows (r, l) (r', l) :=
  ⟨hsettings, hnext, hbs, Nat.le_refl _, fun _ ho _ => howners ho, rfl,
    fun he => ⟨_, he, rfl, fun hl => hl⟩, fun hc => hc, rfl⟩

/-- A step that changes nothing but requests that were there. -/
theorem Follows.of_target {r : Registry} {l l' : Link}
    (ht : l'.target = { l.target with requests := l'.target.requests })
    (hr : l'.refuses = l.refuses) : Follows (r, l) (r, l') := by
  refine ⟨rfl, Nat.le_refl _, fun b hb _ => ⟨b, hb, .refl b⟩, ?_, fun _ ho _ => ho, ?_, ?_, ?_, hr⟩
  · exact Nat.le_of_eq (by rw [ht])
  · rw [ht]
  · rw [ht]
    exact fun he => ⟨_, he, rfl, fun hl => hl⟩
  · rw [ht]
    exact fun hc => hc

/-- A step that deletes requests. -/
theorem Follows.of_without {r : Registry} {l l' : Link} {gone : List RequestId}
    (hs : l.target.Sound) (hgone : ∀ id ∈ gone, ∃ q ∈ l.target.requests, q.id = id)
    (ht : l'.target = l.target.without gone) (hr : l'.refuses = l.refuses) :
    Follows (r, l) (r, l') := by
  refine .of_target (ht.trans ?_) hr
  have hsubs := Target.without_subscriptions hs hgone
  rw [ht]
  simp only [Target.without] at hsubs ⊢
  rw [hsubs]

theorem Accounted.ages_update {r : Registry} {t : Target} (ha : r.Accounted t) {b : Breakpoint}
    (hb : b ∈ r.breakpoints) {f : Breakpoint → Breakpoint} (hf : b.Ages (f b)) :
    ∀ c ∈ (r.update b.id f).breakpoints, c.id < r.nextId → ∃ d ∈ r.breakpoints, d.Ages c := by
  intro c hc _
  rcases (ha.mem_update hb f).mp hc with rfl | ⟨hc, -⟩
  · exact ⟨b, hb, hf⟩
  · exact ⟨c, hc, .refl c⟩

theorem Grants.follows {r : Registry} {l l' : Link} {b : Breakpoint} {news : List Request}
    {resolution : Resolution} (g : r.Grants l b news resolution l') (ha : r.Accounted l.target) :
    Follows (r, l) (r.grant b.id (news.map Request.attachment) resolution, l') := by
  refine ⟨rfl, Nat.le_refl _, ha.ages_update g.listed ?_, ?_, ?_, ?_, ?_, ?_, g.adds.refuses⟩
  · refine ⟨Breakpoint.gain_id .., Breakpoint.gain_site .., ?_, ?_, g.resolved⟩
    · rw [Breakpoint.gain_requests]
      exact List.subset_append_left ..
    · exact fun type ht => (Breakpoint.mem_attach_attached ..).mpr (.inl ht)
  · rw [g.adds.lastRequest]
    exact Nat.le_add_right _ _
  · intro o ho hle
    rw [g.own_eq ha] at ho
    rcases List.mem_append.mp ho with ho | ho
    · exact ho
    · obtain ⟨q, hq, rfl⟩ := List.mem_map.mp ho
      exact absurd hle (Nat.not_le_of_lt (g.adds.fresh hq).1)
  · rw [g.adds.target]
  · exact fun he => ⟨_, (g.adds.type? _).trans he, rfl, fun hl => hl⟩
  · rw [g.adds.connected]
    exact fun hc => hc

theorem Step.follows {s s' : Registry × Link} (h : Step s s')
    (ha : s.1.Accounted s.2.target) : Follows s s' := by
  cases h with
  | elapse he hr =>
    exact ⟨rfl, Nat.le_refl _, fun b hb _ => ⟨b, hb, .refl b⟩, Nat.le_of_eq he.lastRequest.symm,
      fun _ h _ => h, he.subscriptions, he.types, he.connected, hr⟩
  | skip =>
    exact .of_registry rfl (Nat.le_succ _) (fun b hb _ => ⟨b, hb, .refl b⟩) fun _ h => h
  | enlist hid =>
    refine .of_registry rfl (Nat.le_succ _) ?_ fun _ h => h
    intro c hc hlt
    rcases List.mem_append.mp hc with hc | hc
    · exact ⟨c, hc, .refl c⟩
    · rw [List.mem_singleton.mp hc, hid] at hlt
      exact absurd hlt (Nat.lt_irrefl _)
  | grant g => exact g.follows ha
  | count hits hb =>
    exact .of_registry rfl (Nat.le_refl _)
      (ha.ages_update hb ⟨rfl, rfl, fun _ h => h, fun _ h => h, fun h => h⟩) fun _ h => h
  | toggle hb _ ht hr =>
    refine (Follows.of_target (by rw [ht]; rfl) hr).trans ?_
    exact .of_registry rfl (Nat.le_refl _)
      (ha.ages_update hb ⟨rfl, rfl, fun _ h => h, fun _ h => h, fun h => h⟩) fun _ h => h
  | falter hb _ ht hr => exact .of_target (by rw [ht]; rfl) hr
  | forget hb hsub ht hr =>
    refine (Follows.of_without ha.target (fun id hid => ?_) ht hr).trans ?_
    · obtain ⟨q, hq, he, -⟩ := (ha.each _ hb).request (hsub hid)
      exact ⟨q, hq, he⟩
    · exact .of_registry rfl (Nat.le_refl _) (fun c hc _ => ⟨c, (List.mem_filter.mp hc).1, .refl c⟩)
        fun o ho => (List.mem_filter.mp ho).1
  | clear hsub ht hr =>
    refine (Follows.of_without ha.target (fun id hid => ha.known (hsub hid)) ht hr).trans ?_
    exact .of_registry rfl (Nat.le_refl _) (by simp) (by simp)
  | relist => exact .of_registry rfl (Nat.le_refl _) (fun b hb _ => ⟨b, hb, .refl b⟩) fun _ h => h

theorem Steps.follows {s s' : Registry × Link} (h : Steps s s')
    (ha : s.1.Accounted s.2.target) : Follows s s' := by
  induction h with
  | refl => exact .refl s
  | tail hsteps hstep ih => exact ih.trans (hstep.follows (Steps.accounted hsteps ha))

end Registry

end Debugger
