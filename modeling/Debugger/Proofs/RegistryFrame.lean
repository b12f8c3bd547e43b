import Debugger.EventLoop
import Debugger.Proofs.EvaluationFrame

/-!
What the operations of a registry cannot do to a target: a relation between links that holds across
the calls they make holds across all of them.
-/

namespace Debugger

/-- A relation that holds across every call by which breakpoints are attached. -/
structure Steady (R : Link → Link → Prop) : Prop where
  refl : ∀ l, R l l
  trans : ∀ {a b c}, R a b → R b c → R a c
  asks : ∀ {α : Type} (c : Call) (act : Target → Except Fault α), Leads R (Link.ask c act)
  create : ∀ location, Leads R (Remote.createRequest location)
  switch : ∀ id enabled, Leads R (Remote.setRequestEnabled id enabled)

/-- A relation that holds across every call of an evaluation in the scope and of a registry. -/
structure Enduring (R : Link → Link → Prop) (scope : Scope) : Prop extends Lasting R scope where
  create : ∀ location, Leads R (Remote.createRequest location)
  switch : ∀ id enabled, Leads R (Remote.setRequestEnabled id enabled)
  delete : ∀ id, Leads R (Remote.deleteRequest id)
  subscribe : ∀ filter, Leads R (Remote.subscribeLoads filter)

namespace Steady

variable {R : Link → Link → Prop} (h : Steady R)

include h

theorem overPure {α : Type} (a : α) : LeadsOver R (pure a : OverLink α) :=
  fun l => h.refl l

theorem overBind {α β : Type} {x : OverLink α} {f : α → OverLink β} (hx : LeadsOver R x)
    (hf : ∀ a, LeadsOver R (f a)) : LeadsOver R (x >>= f) :=
  fun l => h.trans (hx l) (hf (x l).1 (x l).2)

theorem result? {α : Type} {x : Remote α} (hx : Leads R x) : LeadsOver R x.result? := by
  refine h.overBind hx.outcome fun r => ?_
  split <;> exact h.overPure _

theorem asked? {α : Type} (c : Call) (act : Target → Except Fault α) :
    LeadsOver R (Link.ask c act : Remote α).result? :=
  h.result? (h.asks c act)

/-! ### Attaching -/

theorem attachment (enabled : Bool) (location : Location) :
    LeadsOver R (Attachment.create enabled location) := by
  refine h.overBind (h.result? (h.create location)) fun request => ?_
  split
  · exact h.overPure _
  · split
    · exact h.overBind (h.overPure _) fun _ => h.overPure _
    · exact h.overBind (h.overBind (h.result? (h.switch _ _)) fun _ => h.overPure _) fun _ =>
        h.overPure _

theorem toLine (enabled : Bool) (type : TypeId) (line : Nat) :
    LeadsOver R (Attachment.toLine enabled type line) := by
  refine h.overBind (h.asked? _ _) fun locations => ?_
  split
  · exact h.attachment _ _
  · exact h.overPure _

theorem toMethod (enabled : Bool) (type : TypeId) (name : String) (params : Option (List String)) :
    LeadsOver R (Attachment.toMethod enabled type name params) := by
  have hentries (ms : List Method) : LeadsOver R (Attachment.toEntries enabled type ms) := by
    induction ms with
    | nil => exact h.overPure _
    | cons m ms ih =>
      refine h.overBind (h.asked? _ _) fun location => ?_
      split
      · exact h.overBind (h.attachment _ _) fun _ => h.overBind ih fun _ => h.overPure _
      · exact h.overBind (h.overPure _) fun _ => h.overBind ih fun _ => h.overPure _
  refine h.overBind (h.asked? _ _) fun methods => ?_
  split
  · exact hentries _
  · exact h.overPure _

theorem sourceOf (type : TypeId) : LeadsOver R (sourceOf type) :=
  h.overBind (h.asked? _ _) fun _ => h.overPure _

/-! ### Registration -/

theorem scanLines (mode : SourceMatch) (enabled : Bool) (file : String) (line : Nat)
    (types : List TypeId) : LeadsOver R (Registry.scanLines mode enabled file line types) := by
  induction types with
  | nil => exact h.overPure _
  | cons type types ih =>
    refine h.overBind (h.sourceOf type) fun source => ?_
    split
    · split
      · exact h.overBind (h.toLine _ _ _) fun _ => h.overBind ih fun _ => h.overPure _
      · exact ih
    · exact ih

theorem scanMethods (enabled : Bool) (name : String) (params : Option (List String))
    (types : List TypeId) : LeadsOver R (Registry.scanMethods enabled name params types) := by
  induction types with
  | nil => exact h.overPure _
  | cons type types ih =>
    exact h.overBind (h.toMethod _ _ _ _) fun _ => h.overBind ih fun _ => h.overPure _

theorem resolveNew (r : Registry) (b : Breakpoint) : LeadsOver R (r.resolveNew b) := by
  unfold Registry.resolveNew
  split
  · refine h.overBind (h.asks _ _).outcome fun types => ?_
    split
    · exact h.overPure _
    · exact h.overBind (h.scanLines _ _ _ _ _) fun _ => h.overPure _
  · refine h.overBind (h.asks _ _).outcome fun types => ?_
    split
    · exact h.overPure _
    · exact h.overBind (h.scanMethods _ _ _ _) fun _ => h.overPure _

theorem register (r : Registry) (spec : BreakpointSpec) : LeadsOver R (r.register spec) := by
  unfold Registry.register
  split
  · exact h.overPure _
  · refine h.overBind (h.resolveNew _ _) fun result => ?_
    split <;> exact h.overPure _

/-! ### Loads -/

theorem loadMethods (type : TypeId) (ids : List BreakpointId) (r : Registry) :
    LeadsOver R (Registry.loadMethods type ids r) := by
  induction ids generalizing r with
  | nil => exact h.overPure _
  | cons id ids ih =>
    unfold Registry.loadMethods
    split
    · refine h.overBind (h.toMethod _ _ _ _) fun as => ?_
      split <;> exact h.overBind (ih _) fun _ => h.overPure _
    · exact ih r

theorem loadLines (type : TypeId) (source : String) (ps : List PendingLine) (r : Registry) :
    LeadsOver R (Registry.loadLines type source ps r) := by
  have hline (p : PendingLine) (r : Registry) :
      LeadsOver R (Registry.loadLine type source p r) := by
    unfold Registry.loadLine
    split
    · exact h.overPure _
    · split
      · exact h.overPure _
      · split
        · exact h.overPure _
        · refine h.overBind (h.toLine _ _ _) fun as => ?_
          split <;> exact h.overPure _
  induction ps generalizing r with
  | nil => exact h.overPure _
  | cons p ps ih =>
    refine h.overBind (hline p r) fun out => ?_
    split
    · exact ih _
    · exact h.overBind (ih _) fun _ => h.overPure _

theorem onTypeLoaded (r : Registry) (type : TypeId) : LeadsOver R (r.onTypeLoaded type) := by
  refine h.overBind (h.asked? _ _) fun name => ?_
  split
  · exact h.overPure _
  · refine h.overBind (h.overBind (h.loadMethods _ _ _) fun _ => h.overPure _) fun p =>
      h.overBind (h.sourceOf type) fun source => ?_
    split
    · exact h.overPure _
    · exact h.overBind (h.overBind (h.loadLines _ _ _ _) fun _ => h.overPure _) fun _ =>
        h.overPure _

theorem rescan (r : Registry) : LeadsOver R r.rescan := by
  have htypes (types : List TypeId) (changed : List BreakpointId) (r : Registry) :
      LeadsOver R (Registry.rescanTypes types changed r) := by
    induction types generalizing changed r with
    | nil => exact h.overPure _
    | cons type types ih => exact h.overBind (h.onTypeLoaded r type) fun _ => ih _ _
  refine h.overBind (h.asked? _ _) fun types => ?_
  split
  · exact h.overPure _
  · exact htypes _ _ r

end Steady

namespace Enduring

variable {R : Link → Link → Prop} {scope : Scope} (h : Enduring R scope)

include h

theorem steady : Steady R :=
  ⟨h.refl, h.trans, h.asks, h.create, h.switch⟩

theorem result? {α : Type} {x : Remote α} (hx : Leads R x) : LeadsOver R x.result? :=
  h.steady.result? hx

/-! ### Changes -/

theorem deleteRequests (ids : List RequestId) : LeadsOver R (Registry.deleteRequests ids) := by
  induction ids with
  | nil => exact h.overPure _
  | cons id ids ih =>
    exact h.overBind (h.overBind (h.result? (h.delete id)) fun _ => h.overPure _) fun _ => ih

theorem remove (r : Registry) (id : BreakpointId) : LeadsOver R (r.remove id) := by
  unfold Registry.remove
  dsimp only
  split
  · exact h.overPure _
  · exact h.overBind (h.deleteRequests _) fun _ => h.overPure _

theorem setEnabled (r : Registry) (id : BreakpointId) (enabled : Bool) :
    LeadsOver R (r.setEnabled id enabled) := by
  have hswitch (ids : List RequestId) : LeadsOver R (Registry.switchRequests enabled ids) := by
    induction ids with
    | nil => exact h.overPure _
    | cons id ids ih =>
      refine h.overBind (h.switch _ _).outcome fun result => ?_
      split
      · exact ih
      · split
        · exact ih
        · exact h.overPure _
  unfold Registry.setEnabled
  split
  · exact h.overPure _
  · refine h.overBind (hswitch _) fun result => ?_
    split <;> exact h.overPure _

theorem clear (r : Registry) : LeadsOver R r.clear :=
  h.overBind (h.deleteRequests _) fun _ => h.overPure _

/-! ### Subscriptions -/

theorem watchLoads (w : LoadWatch) : LeadsOver R w.subscribe := by
  unfold LoadWatch.subscribe
  split
  · exact h.overPure _
  · refine h.overBind (h.subscribe _).outcome fun result => ?_
    split <;> exact h.overPure _

theorem unwatchLoads (w : LoadWatch) : LeadsOver R w.unsubscribe := by
  unfold LoadWatch.unsubscribe
  split
  · exact h.overBind (h.overBind (h.result? (h.delete _)) fun _ => h.overPure _) fun _ =>
      h.overPure _
  · exact h.overBind (h.overPure _) fun _ => h.overPure _

/-! ### Sessions -/

theorem sessionAdd (s : Session) (spec : BreakpointSpec) : LeadsOver R (s.add spec) := by
  refine h.overBind (h.watchLoads s.watch) fun p => ?_
  obtain ⟨_ | _, watch⟩ := p
  · exact h.overPure _
  · exact h.overBind (h.steady.register _ spec) fun _ => h.overPure _

theorem sessionRemove (s : Session) (id : BreakpointId) : LeadsOver R (s.remove id) :=
  h.overBind (h.remove _ id) fun _ => h.overPure _

theorem sessionSetEnabled (s : Session) (id : BreakpointId) (enabled : Bool) :
    LeadsOver R (s.setEnabled id enabled) :=
  h.overBind (h.setEnabled _ id enabled) fun _ => h.overPure _

theorem sessionOnTypeLoaded (s : Session) (type : TypeId) : LeadsOver R (s.onTypeLoaded type) :=
  h.overBind (h.steady.onTypeLoaded _ type) fun _ => h.overPure _

theorem sessionRescan (s : Session) : LeadsOver R s.rescan :=
  h.overBind (h.steady.rescan _) fun _ => h.overPure _

theorem sessionClear (s : Session) : LeadsOver R s.clear :=
  h.overBind (h.clear _) fun _ => h.overPure _

theorem sessionUnsubscribe (s : Session) : LeadsOver R s.unsubscribe :=
  h.overBind (h.unwatchLoads s.watch) fun _ => h.overPure _

end Enduring

end Debugger
