import Debugger.Proofs.Sessions

/-!
The log of a session: the hits that it deals with in a run. What single steps do to a session and
the hits they deal with, whole runs do as well.
-/

namespace Debugger

/-- A hit, with the session and the link that it meets. -/
structure Hit where
  session : Session
  link : Link
  request : RequestId
  thread : ThreadId
  /-- Whether it came as an event, so that what is decided is done. -/
  handled : Bool

/-- What is decided on it, if anything ever is. -/
def Hit.decision (h : Hit) : Option Decision :=
  (h.session.decide h.request h.thread h.link).1.1

/-- What the user is told of a hit. -/
def Decision.notices (thread : ThreadId) : Decision → List Notice
  | stop id => [.stopped thread (.breakpoint id)]
  | goOn => []
  | log _ text => [.output text]

namespace Session

theorem handle_hit (s : Session) (request : RequestId) (thread : ThreadId)
    (location : Location) (l : Link) :
    (s.handle (.hit request thread location) l).1.1 =
      (s.decide request thread l).1.1.map (·.notices thread) := by
  simp only [handle, OverLink.bind_run]
  rcases s.decide request thread l with ⟨⟨_ | _ | _ | _, s'⟩, l'⟩ <;> rfl

def eventHits (s : Session × Link) : Event → List Hit
  | .hit request thread _ => [⟨s.1, s.2, request, thread, true⟩]
  | _ => []

/-- The hits among the arrivals, as far as they are dealt with. -/
def attendHits (hearing : Hearing) : List Arrival → Session × Link → List Hit
  | [], _ | .closed :: _, _ | .cancelled :: _, _ => []
  | .delivery (.missed _) :: rest, (s, l) =>
    let ((_, s'), l') := s.rescan l
    attendHits hearing rest (s', l')
  | .delivery (.event event) :: rest, (s, l) =>
    let ((notices?, s'), l') := s.handle event l
    eventHits (s, l) event ++ match notices? with
      | none => []
      | some notices =>
        if !hearing.hears notices || event = .terminated then []
        else attendHits (hearing.after notices) rest (s', l')

def Act.hits (s : Session × Link) : Act → List Hit
  | .decide request thread => [⟨s.1, s.2, request, thread, false⟩]
  | .handle event => eventHits s event
  | .attend hearing arrivals => attendHits hearing arrivals s
  | _ => []

/-- The hits of a run. -/
def hits : List Act → Session × Link → List Hit
  | [], _ => []
  | act :: acts, s => act.hits s ++ hits acts (step s act)

/-- A relation between states of a session and the hits dealt with from the one to the other, that
holds across series of steps. -/
structure Serial (P : Session × Link → List Hit → Session × Link → Prop) : Prop where
  refl : ∀ s, P s [] s
  trans : ∀ {s s' s'' hits more}, P s hits s' → P s' more s'' → P s (hits ++ more) s''

namespace Serial

variable {P : Session × Link → List Hit → Session × Link → Prop} (h : Serial P)

include h

theorem attend {s : Session × Link} {hearing : Hearing} {arrivals : List Arrival}
    (hhandle : ∀ s event, P s (eventHits s event) (step s (.handle event)))
    (hrescan : ∀ s, P s [] (step s .rescan))
    (hunsubscribe : ∀ (s : Session) l, P (s, l) [] (s.unsubscribe l)) :
    P s (attendHits hearing arrivals s) (step s (.attend hearing arrivals)) := by
  obtain ⟨s, l⟩ := s
  change P (s, l) (attendHits hearing arrivals (s, l))
    ((s.attend hearing arrivals l).1.session, (s.attend hearing arrivals l).2)
  induction arrivals generalizing hearing s l with
  | nil => exact h.refl _
  | cons arrival rest ih =>
    rcases arrival with (event | count) | _ | _
    case closed | cancelled => exact h.refl _
    case delivery.missed => exact h.trans (hrescan (s, l)) (ih _ _)
    case delivery.event =>
      have hhere := hhandle (s, l) event
      simp only [Session.attend, attendHits, OverLink.bind_run]
      change P (s, l) _ ((s.handle event l).1.2, (s.handle event l).2) at hhere
      generalize s.handle event l = out at hhere ⊢
      obtain ⟨⟨_ | notices, s'⟩, l'⟩ := out
      · simp only [List.append_nil]
        exact hhere
      by_cases hstop : (!hearing.hears notices) = true
      · simp only [hstop, Bool.true_or, ↓reduceIte, List.append_nil]
        exact hhere
      · by_cases hend : event = .terminated
        · simp only [hstop, hend, Bool.false_eq_true, ↓reduceIte, decide_true, Bool.or_true] at *
          exact h.trans hhere (hunsubscribe s' l')
        · simp only [hstop, hend, Bool.false_eq_true, ↓reduceIte, decide_false, Bool.or_false]
          exact h.trans hhere (ih s' l')

theorem run {acts : List Act} (hstep : ∀ act ∈ acts, ∀ s, P s (act.hits s) (step s act))
    (s : Session × Link) : P s (hits acts s) (run acts s) := by
  induction acts generalizing s with
  | nil => exact h.refl s
  | cons act acts ih =>
    exact h.trans (hstep act List.mem_cons_self s)
      (ih (fun a ha => hstep a (List.mem_cons_of_mem _ ha)) (step s act))

end Serial

end Session

end Debugger
