import Mathlib
import Questlog.Proofs.Service.Step

namespace Questlog

/-- What happens around a service. Between requests something else may change the disk, so that
saving fails at some times and succeeds at others. -/
inductive Event where
  /-- a request comes in -/
  | request (request : Request)
  /-- something else changes the disk -/
  | outside (change : Disk → Disk)

/-- A request with the response to it. -/
structure Exchange where
  request : Request
  response : Response

/-- Whether a request is one of the three that may change the progress. -/
def Request.IsWrite (request : Request) : Prop :=
  request.method = "PUT" ∧ request.path = "/api/progress/items" ∨
    request.method = "PUT" ∧ request.path = "/api/progress/progression" ∨
    request.method = "POST" ∧ request.path = "/api/progress/import"

/-- Whether an event is a request that only reads. -/
def Event.IsRead : Event → Prop
  | request asked => ¬ asked.IsWrite
  | outside _ => False

namespace Request

/-- The paths that lead to a route. -/
theorem path_of_route? {request : Request} {route : Route} (h : request.route? = some route) :
    (request.path, route) ∈ [("/api/health", Route.health), ("/api/evaluate", .evaluate),
      ("/api/checklist", .checklist), ("/api/progress/items", .setItem),
      ("/api/progress/progression", .setProgression), ("/api/progress/export", .exportProgress),
      ("/api/progress/import", .importProgress), ("/api/export/markdown", .exportMarkdown)] ∧
      request.method = route.method := by
  obtain ⟨hpath, hmethod⟩ := Option.filter_eq_some_iff.mp h
  obtain ⟨front, back, hlist, -⟩ := List.lookup_eq_some_iff.mp hpath
  refine ⟨?_, of_decide_eq_true hmethod⟩
  rw [hlist]
  simp

/-- Only a request that may change the progress asks for a change. -/
theorem isWrite_of_change? {request : Request} {progressKey : String} {change : Change}
    (h : request.change? progressKey = some change) : request.IsWrite := by
  unfold change? at h
  cases hroute : request.route? with
  | none => simp [hroute] at h
  | some route =>
    obtain ⟨hpath, hmethod⟩ := path_of_route? hroute
    rw [hroute] at h
    cases route with
    | setItem => exact .inl ⟨hmethod, by simpa using hpath⟩
    | setProgression => exact .inr (.inl ⟨hmethod, by simpa using hpath⟩)
    | importProgress => exact .inr (.inr ⟨hmethod, by simpa using hpath⟩)
    | _ => cases h

end Request

namespace Service

variable {anyWildcard : Bool} {service other : Service}

/-- Lets something happen. A request is answered. -/
def meet : Event → StateM Service (Option Exchange)
  | .request request => do return some ⟨request, ← answer request⟩
  | .outside change => fun service => (none, { service with disk := change service.disk })

/-- Lets things happen one after the other. -/
def meetAll (events : List Event) : StateM Service (List (Option Exchange)) :=
  events.mapM meet

theorem meetAll_cons (event : Event) (events : List Event) (service : Service) :
    meetAll (event :: events) service =
      ((meet event service).1 :: (meetAll events (meet event service).2).1,
        (meetAll events (meet event service).2).2) := by
  rw [meetAll, List.mapM_cons]
  rfl

/-- Services that are alike go through the same and stay alike. -/
theorem Alike.meet (h : Alike anyWildcard service other) (event : Event) :
    (Service.meet event other).1 = (Service.meet event service).1 ∧
      Alike anyWildcard (Service.meet event service).2 (Service.meet event other).2 := by
  cases event with
  | request request =>
    obtain ⟨hanswer, hnext⟩ := h.answer request
    exact ⟨congrArg (fun response => some (Exchange.mk request response)) hanswer, hnext⟩
  | outside change =>
    refine ⟨rfl, h.sound, h.sound', ?_⟩
    simp only [Service.meet]
    rw [h.same]

/-- Services that differ in what their gates keep go through the same. -/
theorem Alike.meetAll (h : Alike anyWildcard service other) (events : List Event) :
    (Service.meetAll events other).1 = (Service.meetAll events service).1 ∧
      Alike anyWildcard (Service.meetAll events service).2 (Service.meetAll events other).2 := by
  induction events generalizing service other with
  | nil => exact ⟨rfl, h⟩
  | cons event rest ih =>
    obtain ⟨hfirst, hnext⟩ := h.meet event
    obtain ⟨hrest, hlast⟩ := ih hnext
    rw [meetAll_cons, meetAll_cons]
    exact ⟨congrArg₂ List.cons hfirst hrest, hlast⟩

/-- Reading changes nothing but what the gate keeps. -/
theorem meet_of_isRead (hsound : service.gate.Sound anyWildcard) {event : Event}
    (h : event.IsRead) : Alike anyWildcard service (meet event service).2 := by
  cases event with
  | request request =>
    have hchange : request.change? service.progressKey = none := by
      by_contra hsome
      obtain ⟨change, hchange⟩ := Option.ne_none_iff_exists'.mp hsome
      exact h (Request.isWrite_of_change? hchange)
    exact (answer_of_no_change hsound hchange).1
  | outside change => cases h

/-- What belongs to the visits that are kept. -/
def ofKept {α β : Type} (visits : List (Bool × α)) (results : List β) : List β :=
  ((visits.zip results).filter (·.1.1)).map (·.2)

/-- Leaving out some of the requests that only read changes nothing for the other ones. -/
theorem Alike.meetAll_kept (h : Alike anyWildcard service other) (visits : List (Bool × Event))
    (hreads : ∀ visit ∈ visits, visit.1 = false → visit.2.IsRead) :
    ofKept visits (Service.meetAll (visits.map (·.2)) service).1 =
      (Service.meetAll ((visits.filter (·.1)).map (·.2)) other).1 := by
  induction visits generalizing service other with
  | nil => rfl
  | cons visit rest ih =>
    obtain ⟨hread, hrest⟩ := List.forall_mem_cons.mp hreads
    obtain ⟨kept, event⟩ := visit
    rw [List.map_cons, meetAll_cons]
    cases kept with
    | true =>
      obtain ⟨hfirst, hnext⟩ := h.meet event
      rw [List.filter_cons_of_pos rfl, List.map_cons, meetAll_cons, hfirst]
      exact congrArg (List.cons _) (ih hnext hrest)
    | false =>
      have hstays := meet_of_isRead h.sound (hread rfl)
      rw [List.filter_cons_of_neg (by simp)]
      exact ih (hstays.symm.trans h) hrest

end Service

namespace Session

variable {ι : Type} [DecidableEq ι] {settings : GateSettings} {session : Session ι}
  {history : List (GateCall × GateReply)} {service : Service}

/-- Reading leaves no trace. Whatever the gate was asked before, let requests come in and the disk
change in between, so that saving may fail at any time. Leaving out any of the requests that only
read, the other ones get the responses that they get with them. -/
theorem Run.reads_leave_no_trace (h : Run settings session history)
    (hgate : service.gate = session.gate) (visits : List (Bool × Event))
    (hreads : ∀ visit ∈ visits, visit.1 = false → visit.2.IsRead) :
    Service.ofKept visits (Service.meetAll (visits.map (·.2)) service).1 =
      (Service.meetAll ((visits.filter (·.1)).map (·.2)) service).1 := by
  have hsound : service.gate.Sound settings.anyWildcard := hgate ▸ h.gate_sound
  exact (Service.Alike.refl hsound).meetAll_kept visits hreads

/-- With room for one condition only, a question about another one and a look at the list are left
out, though the first condition has to be compiled once more because of them. -/
theorem Run.reads_leave_no_trace_evicted :
    let ask (body : String) : Event :=
      .request ⟨"POST", "/api/evaluate", some "application/json", body⟩
    let look : Event := .request { method := "GET", target := "/api/checklist" }
    let visits := [(true, ask "[\"region\"]"), (false, ask "[\"gameMode\"]"),
      (false, look), (true, .outside fun _ => {}), (true, ask "[\"region\"]")]
    let service : Service :=
      { checklist := {}
        title := ""
        progressKey := "ns"
        gate := Gate.new { cacheCapacity := some 1 }
        progress := { scope := "ns" } }
    (∀ visit ∈ visits, visit.1 = false → visit.2.IsRead) ∧
      Service.ofKept visits (Service.meetAll (visits.map (·.2)) service).1 =
        (Service.meetAll ((visits.filter (·.1)).map (·.2)) service).1 := by
  intro ask look visits service
  have hask : ∀ body, (ask body).IsRead := by
    simp [ask, Event.IsRead, Request.IsWrite, Request.path]
  have hlook : look.IsRead := by
    simp [look, Event.IsRead, Request.IsWrite]
  have hreads : ∀ visit ∈ visits, visit.1 = false → visit.2.IsRead := by
    simp [visits, hask, hlook]
  have unused : Run { cacheCapacity := some 1 } (⟨service.gate, fun _ => none⟩ : Session Unit) [] :=
    .start
  exact ⟨hreads, unused.reads_leave_no_trace rfl visits hreads⟩

end Session

end Questlog
