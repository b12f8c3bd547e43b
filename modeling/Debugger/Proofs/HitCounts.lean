import Debugger.Proofs.Growth
import Debugger.Proofs.HitLog
import Debugger.Proofs.Logpoints

/-!
Hit counts: what a breakpoint has counted is how often one of its requests was hit while it was
enabled.
-/

namespace Debugger

/-- Whether the hit counts for the breakpoint of the id: it has the request and is enabled. -/
def Hit.countsFor (h : Hit) (id : BreakpointId) : Bool :=
  h.session.registry.breakpoints.any fun b =>
    b.id = id && (b.enabled && b.requests.contains h.request)

/-! ### Without hits -/

/-- No breakpoint has counted a hit, and new ones start from zero. -/
structure Registry.Uncounted (r r' : Registry) : Prop where
  nextId : r.nextId ≤ r'.nextId
  each : ∀ b' ∈ r'.breakpoints,
    (∃ b ∈ r.breakpoints, b.id = b'.id ∧ b'.hits = b.hits) ∨ (r.nextId ≤ b'.id ∧ b'.hits = 0)

namespace Registry.Uncounted

variable {r r' : Registry}

/-- Some of the old breakpoints are left. -/
theorem of_subset (hnext : r.nextId ≤ r'.nextId) (hbs : r'.breakpoints ⊆ r.breakpoints) :
    r.Uncounted r' :=
  ⟨hnext, fun b hb => .inl ⟨b, hbs hb, rfl, rfl⟩⟩

theorem refl (r : Registry) : r.Uncounted r :=
  .of_subset (Nat.le_refl _) (List.Subset.refl _)

theorem of_map (hnext : r.nextId ≤ r'.nextId) {g : Breakpoint → Breakpoint}
    (hbs : r'.breakpoints = r.breakpoints.map g) (hid : ∀ b, (g b).id = b.id)
    (hhits : ∀ b, (g b).hits = b.hits) : r.Uncounted r' := by
  refine ⟨hnext, fun b' hb' => ?_⟩
  rw [hbs] at hb'
  obtain ⟨b, hb, rfl⟩ := List.mem_map.mp hb'
  exact .inl ⟨b, hb, (hid b).symm, hhits b⟩

theorem of_grows (h : r.Grows r') : r.Uncounted r' := by
  obtain ⟨g, hg, hbs⟩ := h.breakpoints
  exact .of_map (Nat.le_of_eq h.nextId.symm) hbs (fun b => (hg b).id_eq) fun b => (hg b).hits_eq

theorem register (r : Registry) (spec : BreakpointSpec) (l : Link) :
    r.Uncounted (r.register spec l).1.2 := by
  obtain ⟨hnext, hbs | ⟨b, b', hacc, hgrows, hbs⟩⟩ := register_grows r spec l
  · exact .of_subset hnext (hbs ▸ List.Subset.refl _)
  · refine ⟨hnext, fun c hc => ?_⟩
    rw [hbs] at hc
    rcases List.mem_append.mp hc with hc | hc
    · exact .inl ⟨c, hc, rfl, rfl⟩
    · obtain rfl := List.mem_singleton.mp hc
      have hid : c.id = r.nextId := hgrows.id_eq.trans (accept_ok hacc).1
      have hhits : c.hits = 0 := hgrows.hits_eq.trans (accept_spec hacc).2.2
      exact .inr ⟨Nat.le_of_eq hid.symm, hhits⟩

theorem setEnabled (r : Registry) (id : BreakpointId) (enabled : Bool) (l : Link) :
    r.Uncounted (r.setEnabled id enabled l).1.2 := by
  rcases setEnabled_registry r id enabled l with h | h
  · rw [h]
    exact .refl r
  · rw [h]
    refine .of_map (Nat.le_refl _) rfl (fun b => ?_) fun b => ?_
    · split <;> rfl
    · split <;> rfl

theorem remove (r : Registry) (id : BreakpointId) (l : Link) :
    r.Uncounted (r.remove id l).1.2 := by
  obtain ⟨hnext, hbs⟩ := remove_breakpoints r id l
  exact .of_subset (Nat.le_of_eq hnext.symm) (hbs ▸ List.filter_subset_self _)

end Registry.Uncounted

namespace Session

/-! ### What a session does to its registry -/

/-- Between the states each breakpoint counted these hits, as far as they count for it. One that is
new has counted all of them. -/
structure Counts (s : Session) (hits : List Hit) (s' : Session) : Prop where
  nextId : s.registry.nextId ≤ s'.registry.nextId
  issued : ∀ h ∈ hits, ∀ id, h.countsFor id = true → id < s'.registry.nextId
  each : ∀ b' ∈ s'.registry.breakpoints,
    (∃ b ∈ s.registry.breakpoints,
      b.id = b'.id ∧ b'.hits = b.hits + hits.countP (·.countsFor b'.id)) ∨
    (s.registry.nextId ≤ b'.id ∧ b'.hits = hits.countP (·.countsFor b'.id))

namespace Counts

variable {s s' s'' : Session} {hits more : List Hit}

theorem nothing (h : s.registry.Uncounted s'.registry) : s.Counts [] s' :=
  ⟨h.nextId, by simp, h.each⟩

theorem trans (h : s.Counts hits s') (h' : s'.Counts more s'') : s.Counts (hits ++ more) s'' := by
  refine ⟨Nat.le_trans h.nextId h'.nextId, ?_, ?_⟩
  · intro hit hm id hid
    rcases List.mem_append.mp hm with hm | hm
    · exact Nat.lt_of_lt_of_le (h.issued hit hm id hid) h'.nextId
    · exact h'.issued hit hm id hid
  · intro b'' hb''
    rw [List.countP_append]
    rcases h'.each b'' hb'' with ⟨b', hb', hid', hhits'⟩ | ⟨hnew, hhits'⟩
    · rw [hhits', ← hid']
      rcases h.each b' hb' with ⟨b, hb, hid, hhits⟩ | ⟨hnew, hhits⟩
      · exact .inl ⟨b, hb, hid, by rw [hhits, Nat.add_assoc]⟩
      · exact .inr ⟨hnew, by rw [hhits]⟩
    -- What is new only now was not there to be hit before.
    · have hnone : hits.countP (·.countsFor b''.id) = 0 := by
        refine List.countP_eq_zero.mpr fun hit hm hcounts => ?_
        exact Nat.not_lt_of_le hnew (h.issued hit hm _ hcounts)
      exact .inr ⟨Nat.le_trans h.nextId hnew, by rw [hhits', hnone, Nat.zero_add]⟩

end Counts

end Session

end Debugger
