import Mathlib
import Questlog.Proofs.Checklist.Statuses
import Questlog.Service.Routes

namespace Questlog

namespace Response

@[simp] theorem status_bare (status : Nat) : (bare status).status = status := rfl

@[simp] theorem status_json (status : Nat) (value : Json) : (json status value).status = status := rfl

@[simp] theorem status_jsonText (status : Nat) (text : String) :
    (jsonText status text).status = status := rfl

@[simp] theorem status_markdown (page : String) : (markdown page).status = 200 := rfl

@[simp] theorem status_refusal (status : Nat) (message : String) :
    (refusal status message).status = status := rfl

end Response

/-- A change of the progress that a request can ask for. -/
inductive Change where
  | item (update : ItemUpdate)
  | progression (update : ProgressionUpdate)
  | replace (keys : List String)

namespace Change

/-- The progress after a change. -/
def apply (progress : Progress) : Change → Progress
  | item update => (progress.setCompleted update.key update.completed).2
  | progression update => progress.setProgression update.gameMode update.region
  | replace keys => progress.replaceCompleted keys

/-- Whether a change is to be saved. Of a single item only a new state is. -/
def isToBeSaved (progress : Progress) : Change → Bool
  | item update => (progress.setCompleted update.key update.completed).1
  | progression _ => true
  | replace _ => true

/-- The response to a change that is carried out. -/
def reply (progress : Progress) : Change → Response
  | item update => .json 200 (.object [("key", .string update.key),
      ("completed", .bool update.completed),
      ("changed", .bool (progress.setCompleted update.key update.completed).1)])
  | progression update => .json 200 (.object [("values",
      (progress.setProgression update.gameMode update.region).values.toJson)])
  | replace keys => .json 200 (.object [("imported",
      .ofNat (progress.replaceCompleted keys).completed.length)])

/-- Carries out a change and saves it if need be. -/
def carryOut (change : Change) : StateM Service Response := do
  let { progress, .. } ← get
  modify fun service => { service with progress := change.apply progress }
  if change.isToBeSaved progress then Service.savedThen (change.reply progress)
  else return change.reply progress

end Change

namespace Request

/-- The route that a request fits by its path and its method. -/
def route? (request : Request) : Option Route :=
  (Route.ofPath? request.path).filter (request.method = ·.method)

/-- The change that a request asks for, if its body is accepted. -/
def change? (progressKey : String) (request : Request) : Option Change :=
  match request.route? with
  | some .setItem => (request.read ItemUpdate.parse).toOption.map .item
  | some .setProgression => (request.read ProgressionUpdate.parse).toOption.map .progression
  | some .importProgress =>
    if request.body.utf8ByteSize > maxBody then none
    else (Progress.importKeys request.body progressKey).toOption.map .replace
  | _ => none

end Request

namespace Service

variable {α β : Type} {anyWildcard : Bool} {service other : Service}

/-- Two services that differ only in what their gates keep, which is sound in both. -/
structure Alike (anyWildcard : Bool) (service other : Service) : Prop where
  sound : service.gate.Sound anyWildcard
  sound' : other.gate.Sound anyWildcard
  same : other = { service with gate := other.gate }

theorem Alike.refl (h : service.gate.Sound anyWildcard) : Alike anyWildcard service service :=
  ⟨h, h, rfl⟩

theorem Alike.symm (h : Alike anyWildcard service other) : Alike anyWildcard other service := by
  refine ⟨h.sound', h.sound, ?_⟩
  rw [h.same]

theorem Alike.trans {third : Service} (h : Alike anyWildcard service other)
    (h' : Alike anyWildcard other third) : Alike anyWildcard service third := by
  refine ⟨h.sound, h'.sound', ?_⟩
  rw [h'.same, h.same]

/-- An action that changes nothing but what the gate keeps, and that answers as with any other sound
gate. Its answers have the property `post`. -/
structure Reads (post : α → Prop) (action : StateM Service α) : Prop where
  keeps : ∀ service, ∃ gate, (action service).2 = { service with gate }
  answers : ∀ {anyWildcard service other}, Alike anyWildcard service other →
    (action other).1 = (action service).1 ∧ (action service).2.gate.Sound anyWildcard
  meets : ∀ service, post (action service).1

namespace Reads

variable {action : StateM Service α} {post : α → Prop} {post' : β → Prop}

/-- Services that are alike stay so over a reading. -/
theorem alike (h : Reads post action) (halike : Alike anyWildcard service other) :
    Alike anyWildcard (action service).2 (action other).2 := by
  obtain ⟨gate, hgate⟩ := h.keeps service
  obtain ⟨gate', hgate'⟩ := h.keeps other
  refine ⟨(h.answers halike).2, (h.answers halike.symm).2, ?_⟩
  rw [hgate, hgate', halike.same]

/-- A reading leaves the service as it was, but for the gate. -/
theorem stays (h : Reads post action) (hsound : service.gate.Sound anyWildcard) :
    Alike anyWildcard service (action service).2 := by
  obtain ⟨gate, hgate⟩ := h.keeps service
  refine ⟨hsound, (h.answers (.refl hsound)).2, ?_⟩
  rw [hgate]

theorem of_pure {a : α} (h : post a) : Reads post (pure a : StateM Service α) :=
  ⟨fun service => ⟨service.gate, rfl⟩, fun h => ⟨rfl, h.sound⟩, fun _ => h⟩

theorem bind {next : α → StateM Service β} (h : Reads post action)
    (hnext : ∀ a, post a → Reads post' (next a)) : Reads post' (action >>= next) := by
  refine ⟨?_, ?_, fun service => (hnext _ (h.meets service)).meets _⟩
  · intro service
    obtain ⟨gate, hgate⟩ := h.keeps service
    obtain ⟨gate', hgate'⟩ := (hnext _ (h.meets service)).keeps (action service).2
    refine ⟨gate', hgate'.trans ?_⟩
    rw [hgate]
  · intro anyWildcard service other halike
    obtain ⟨hanswer, hsound⟩ := (hnext _ (h.meets service)).answers (h.alike halike)
    have hother : (action >>= next) other = next (action service).1 (action other).2 :=
      congrArg (next · (action other).2) (h.answers halike).1
    exact ⟨(congrArg Prod.fst hother).trans hanswer, hsound⟩

theorem map {f : α → β} (h : Reads post action) (hpost : ∀ a, post a → post' (f a)) :
    Reads post' (f <$> action) :=
  h.bind fun a ha => of_pure (hpost a ha)

/-- Whatever is read of a service apart from its gate may decide how to go on. -/
theorem of_get {next : Service → StateM Service α} (hnext : ∀ service, Reads post (next service))
    (hview : ∀ service gate, next { service with gate } = next service) :
    Reads post (get >>= next) := by
  refine ⟨fun service => (hnext service).keeps service, ?_, fun service => (hnext service).meets _⟩
  intro anyWildcard service other halike
  have hother : next other other = next service other :=
    congrFun (halike.same ▸ hview service other.gate) other
  obtain ⟨hanswer, hsound⟩ := (hnext service).answers halike
  exact ⟨(congrArg Prod.fst hother).trans hanswer, hsound⟩

/-- What every sound gate answers alike may be asked of it. -/
theorem of_gate {decide : StateM Gate α} {verdict : Bool → α}
    (h : ∀ {anyWildcard gate}, gate.Sound anyWildcard →
      (decide gate).1 = verdict anyWildcard ∧ (decide gate).2.Sound anyWildcard) :
    Reads (fun _ => True) (withGate decide) := by
  refine ⟨fun service => ⟨(decide service.gate).2, rfl⟩, ?_, fun _ => trivial⟩
  intro anyWildcard service other halike
  obtain ⟨hanswer, hsound⟩ := h halike.sound
  exact ⟨(h halike.sound').1.trans hanswer.symm, hsound⟩

end Reads

/-- An action that only reads, and whose response is not that to a change which could not be saved. -/
abbrev Replies (action : StateM Service Response) : Prop :=
  Reads (fun response => response.status ≠ 500) action

section Handlers

/-- Evaluating only reads. -/
theorem replies_evaluate (evaluation : Evaluation) : Replies (evaluate evaluation) := by
  apply Reads.of_get
  · intro service
    dsimp only
    split
    · exact Reads.of_pure (by simp)
    · next values _ =>
      apply Reads.bind
      · exact Reads.of_gate fun h => h.isUnlocked evaluation.condition values
      · exact fun unlocked _ => Reads.of_pure (by simp)
  · exact fun service gate => rfl

theorem replies_showChecklist : Replies showChecklist := by
  apply Reads.of_get
  · intro service
    apply Reads.bind
    · exact Reads.of_gate fun h => Checklist.statuses_eq h service.checklist service.progress
    intro items _
    apply Reads.bind
    · exact Reads.of_gate fun h => Checklist.outline_eq h service.checklist service.progress
    · exact fun sections _ => Reads.of_pure (by simp)
  · exact fun service gate => rfl

theorem replies_exportProgress : Replies exportProgress := by
  apply Reads.of_get
  · intro service
    apply Reads.of_pure
    split <;> simp
  · exact fun service gate => rfl

theorem replies_exportMarkdown : Replies exportMarkdown := by
  apply Reads.of_get
  · intro service
    apply Reads.of_pure
    split <;> simp
  · exact fun service gate => rfl

/-- A route that is read with `GET` only reads. -/
theorem replies_answerAt {route : Route} (h : route.method = "GET") (request : Request) :
    Replies (answerAt route request) := by
  cases route with
  | health => exact Reads.of_pure (by simp)
  | checklist => exact replies_showChecklist
  | exportProgress => exact replies_exportProgress
  | exportMarkdown => exact replies_exportMarkdown
  | evaluate => exact absurd h (by decide)
  | setItem => exact absurd h (by decide)
  | setProgression => exact absurd h (by decide)
  | importProgress => exact absurd h (by decide)

/-- A body is refused as a fault of the request. -/
theorem status_read {α : Type} {request : Request} {parse : String → Except Body.Fault α}
    {refused : Response} (h : request.read parse = .error refused) :
    400 ≤ refused.status ∧ refused.status < 500 := by
  unfold Request.read at h
  split at h
  · cases h
    simp
  split at h
  · cases h
    simp
  split at h
  · cases h
  · cases h
    simp
  · cases h
    simp

/-- What is read of a request is what its body denotes. -/
theorem parse_of_read {α : Type} {request : Request} {parse : String → Except Body.Fault α} {a : α}
    (h : request.read parse = .ok a) : parse request.body = .ok a := by
  unfold Request.read at h
  split at h
  · cases h
  split at h
  · cases h
  split at h
  · next hparse =>
    cases h
    exact hparse
  · cases h
  · cases h

/-- A body of JSON that is not too large is read as it is parsed. -/
theorem read_of_parse {α : Type} {request : Request} {parse : String → Except Body.Fault α} {a : α}
    (hjson : request.contentType.any MediaType.isJson = true)
    (hsize : request.body.utf8ByteSize ≤ Request.maxBody) (hparse : parse request.body = .ok a) :
    request.read parse = .ok a := by
  simp only [Request.read, hjson, Bool.true_eq_false, if_false, if_neg (Nat.not_lt.mpr hsize), hparse]

/-- Reading a body first is still a reading. -/
theorem replies_whenRead {α : Type} (request : Request) (parse : String → Except Body.Fault α)
    {carryOut : α → StateM Service Response} (h : ∀ a, Replies (carryOut a)) :
    Replies (whenRead request parse carryOut) := by
  unfold whenRead
  split
  · exact h _
  · next hread => exact Reads.of_pure (status_read hread).2.ne

end Handlers

section Changes

/-- Saving touches the disk alone, and the gate has no part in it. -/
theorem save_eq (service : Service) :
    ∃ disk, ∀ gate, save { service with gate } = ((save service).1, { service with gate, disk }) := by
  cases hfile : service.file with
  | none =>
    refine ⟨service.disk, fun gate => ?_⟩
    simp only [save, hfile]
  | some path =>
    cases hsave : service.progress.save path service.disk with
    | mk saved disk =>
      refine ⟨disk, fun gate => ?_⟩
      simp only [save, hfile, hsave]

/-- Saving and then replying, told by whether saving succeeds. -/
theorem savedThen_eq (reply : Response) (service : Service) :
    savedThen reply service =
      (if (save service).1 then reply else notSaved, (save service).2) := by
  simp only [savedThen, bind, StateT.bind]
  rcases save service with ⟨_ | _, next⟩ <;> rfl

variable {change : Change}

/-- A change that makes no difference is not saved. -/
theorem carryOut_of_unsaved (service : Service)
    (h : change.isToBeSaved service.progress = false) :
    change.carryOut service = (change.reply service.progress,
      { service with progress := change.apply service.progress }) := by
  simp only [Change.carryOut, bind, StateT.bind, get, getThe, MonadStateOf.get, StateT.get, pure,
    modify, modifyGet, MonadStateOf.modifyGet, StateT.modifyGet, h]
  rfl

/-- A change that makes a difference is saved before it is replied to. -/
theorem carryOut_of_saved (service : Service)
    (h : change.isToBeSaved service.progress = true) :
    change.carryOut service = savedThen (change.reply service.progress)
      { service with progress := change.apply service.progress } := by
  simp only [Change.carryOut, bind, StateT.bind, get, getThe, MonadStateOf.get, StateT.get, pure,
    modify, modifyGet, MonadStateOf.modifyGet, StateT.modifyGet, h]
  rfl

/-- A change is carried out on the progress, whether or not saving it succeeds, and the gate has no
part in it. -/
theorem carryOut_eq (change : Change) (service : Service) :
    ∃ disk, ∀ gate, change.carryOut { service with gate } =
      ((change.carryOut service).1,
        { service with gate, progress := change.apply service.progress, disk }) := by
  cases hsaved : change.isToBeSaved service.progress with
  | false =>
    refine ⟨service.disk, fun gate => ?_⟩
    have hreply := carryOut_of_unsaved { service with gate } hsaved
    rw [hreply, carryOut_of_unsaved service hsaved]
  | true =>
    obtain ⟨disk, hsave⟩ := save_eq { service with progress := change.apply service.progress }
    refine ⟨disk, fun gate => ?_⟩
    have hgate := carryOut_of_saved { service with gate } hsaved
    rw [hgate, carryOut_of_saved service hsaved, savedThen_eq, savedThen_eq]
    rw [hsave gate]

/-- Carrying out a change changes the progress as the change does, and the disk at most besides. -/
theorem carryOut_next (change : Change) (service : Service) :
    ∃ disk, (change.carryOut service).2 =
      { service with progress := change.apply service.progress, disk } := by
  obtain ⟨disk, hcarry⟩ := carryOut_eq change service
  exact ⟨disk, congrArg Prod.snd (hcarry service.gate)⟩

/-- The response to a change, unless it had to be saved and could not be. -/
theorem carryOut_reply (change : Change) (service : Service) :
    (change.carryOut service).1 = change.reply service.progress ∨
      (change.carryOut service).1 = notSaved ∧
        (save { service with progress := change.apply service.progress }).1 = false := by
  cases hsaved : change.isToBeSaved service.progress with
  | false => exact .inl (by rw [carryOut_of_unsaved service hsaved])
  | true =>
    rw [carryOut_of_saved service hsaved, savedThen_eq]
    cases (save { service with progress := change.apply service.progress }).1 with
    | true => exact .inl rfl
    | false => exact .inr ⟨rfl, rfl⟩

/-- A change that is carried out is replied to with 200. -/
theorem status_reply (change : Change) (progress : Progress) :
    (change.reply progress).status = 200 := by
  cases change <;> rfl

end Changes

section Answers

variable {request : Request} {route : Route} {progressKey : String}

theorem answer_of_route (h : request.route? = some route) :
    answer request = answerAt route request := by
  obtain ⟨hpath, hmethod⟩ := Option.filter_eq_some_iff.mp h
  have hmethod := of_decide_eq_true hmethod
  have hoptions : request.method ≠ "OPTIONS" := by
    rw [hmethod]
    cases route <;> decide
  simp only [answer, if_neg hoptions, hpath, if_pos hmethod]

theorem replies_answer_of_no_route (h : request.route? = none) : Replies (answer request) := by
  unfold answer
  split
  · exact Reads.of_pure (by simp)
  split
  · exact Reads.of_pure (by simp)
  next route hpath =>
  have hmethod : request.method ≠ route.method := by
    simpa [Request.route?, hpath] using h
  rw [if_neg hmethod]
  split
  · next hhead => exact (replies_answerAt hhead.2 request).map fun response hstatus => hstatus
  · exact Reads.of_pure (by simp)

/-- `Does progressKey action change?`: with that progress key the action carries out the change, or
only reads where there is none. -/
def Does (progressKey : String) (action : StateM Service Response) : Option Change → Prop
  | some change => ∀ service, service.progressKey = progressKey →
      action service = change.carryOut service
  | none => ∃ reading, Replies reading ∧
      ∀ service, service.progressKey = progressKey → action service = reading service

theorem Replies.does {action : StateM Service Response} (h : Replies action) (progressKey : String) :
    Does progressKey action none :=
  ⟨action, h, fun _ _ => rfl⟩

/-- Reading a body and carrying out what it asks for. -/
theorem does_whenRead {α : Type} (request : Request) (parse : String → Except Body.Fault α)
    {carryOut : α → StateM Service Response} {change : α → Change}
    (h : ∀ a, carryOut a = (change a).carryOut) (progressKey : String) :
    Does progressKey (whenRead request parse carryOut)
      ((request.read parse).toOption.map change) := by
  unfold whenRead
  cases hread : request.read parse with
  | error refused => exact Replies.does (Reads.of_pure (status_read hread).2.ne) progressKey
  | ok a => exact fun service _ => congrFun (h a) service

/-- Setting an item is a change. -/
theorem setItem_eq_carryOut (update : ItemUpdate) : setItem update = (Change.item update).carryOut :=
  rfl

theorem setProgression_eq_carryOut (update : ProgressionUpdate) :
    setProgression update = (Change.progression update).carryOut :=
  rfl

/-- An import of keys that are read is a change. -/
theorem importProgress_of_ok {text : String} {keys : List String}
    (h : Progress.importKeys text service.progressKey = .ok keys) :
    importProgress text service = (Change.replace keys).carryOut service := by
  have himport : service.progress.importText text service.progressKey =
      .ok ((service.progress.replaceCompleted keys).completed.length,
        service.progress.replaceCompleted keys) := by
    rw [Progress.importText, h]
  rw [carryOut_of_saved service rfl]
  simp only [importProgress, bind, StateT.bind, get, getThe, MonadStateOf.get, StateT.get, pure,
    himport, modify, modifyGet, MonadStateOf.modifyGet, StateT.modifyGet, Change.apply, Change.reply]

/-- An import that cannot be read is refused and changes nothing. -/
theorem importProgress_of_error {text : String} {e : ImportError}
    (h : Progress.importKeys text service.progressKey = .error e) :
    importProgress text service = (.refusal 400 ("Import failed: " ++ e.message), service) := by
  have himport : service.progress.importText text service.progressKey = .error e := by
    rw [Progress.importText, h]
  simp only [importProgress, bind, StateT.bind, get, getThe, MonadStateOf.get, StateT.get, pure,
    himport, StateT.pure]

theorem does_importProgress (text progressKey : String) :
    Does progressKey (importProgress text)
      ((Progress.importKeys text progressKey).toOption.map .replace) := by
  cases hkeys : Progress.importKeys text progressKey with
  | error e =>
    refine ⟨pure (.refusal 400 ("Import failed: " ++ e.message)), Reads.of_pure (by simp), ?_⟩
    rintro service rfl
    exact importProgress_of_error hkeys
  | ok keys =>
    rintro service rfl
    exact importProgress_of_ok hkeys

/-- A request either asks for a change, which is carried out, or only reads. -/
theorem answer_does (request : Request) (progressKey : String) :
    Does progressKey (answer request) (request.change? progressKey) := by
  unfold Request.change?
  cases hroute : request.route? with
  | none => exact Replies.does (replies_answer_of_no_route hroute) progressKey
  | some route =>
    rw [answer_of_route hroute]
    cases route with
    | setItem => exact does_whenRead request _ setItem_eq_carryOut progressKey
    | setProgression => exact does_whenRead request _ setProgression_eq_carryOut progressKey
    | importProgress =>
      simp only [answerAt]
      split
      · exact Replies.does (Reads.of_pure (by simp)) progressKey
      · exact does_importProgress request.body progressKey
    | evaluate => exact Replies.does (replies_whenRead request _ replies_evaluate) progressKey
    | health => exact Replies.does (replies_answerAt rfl request) progressKey
    | checklist => exact Replies.does (replies_answerAt rfl request) progressKey
    | exportProgress => exact Replies.does (replies_answerAt rfl request) progressKey
    | exportMarkdown => exact Replies.does (replies_answerAt rfl request) progressKey

end Answers

section Steps

variable {request : Request}

/-- A request that asks for a change carries it out, whatever the gate keeps. -/
theorem answer_of_change {change : Change}
    (h : request.change? service.progressKey = some change) :
    answer request service = change.carryOut service := by
  have hdoes := answer_does request service.progressKey
  rw [h] at hdoes
  exact hdoes service rfl

/-- A request that asks for no change only reads: nothing but the gate is touched. -/
theorem answer_of_reading (h : request.change? service.progressKey = none) :
    ∃ reading, Replies reading ∧ answer request service = reading service := by
  have hdoes := answer_does request service.progressKey
  rw [h] at hdoes
  obtain ⟨reading, hreads, haction⟩ := hdoes
  exact ⟨reading, hreads, haction service rfl⟩

/-- A request that asks for no change leaves the service as it is, but for what the gate keeps. -/
theorem answer_of_no_change (hsound : service.gate.Sound anyWildcard)
    (h : request.change? service.progressKey = none) :
    Alike anyWildcard service (answer request service).2 ∧
      (answer request service).1.status ≠ 500 := by
  obtain ⟨reading, hreads, hanswer⟩ := answer_of_reading h
  rw [hanswer]
  exact ⟨hreads.stays hsound, hreads.meets service⟩

/-- Services that are alike give the same answer and stay alike. -/
theorem Alike.answer (h : Alike anyWildcard service other) (request : Request) :
    (Service.answer request other).1 = (Service.answer request service).1 ∧
      Alike anyWildcard (Service.answer request service).2 (Service.answer request other).2 := by
  -- The same reading answers both, so the cases are those of what the request does to any service.
  have hdoes := answer_does request service.progressKey
  have hkey : other.progressKey = service.progressKey := by rw [h.same]
  cases hchange : request.change? service.progressKey with
  | some change =>
    rw [hchange] at hdoes
    obtain ⟨disk, hcarry⟩ := carryOut_eq change service
    have hservice := hcarry service.gate
    have hother := hcarry other.gate
    rw [← h.same] at hother
    rw [hdoes service rfl, hdoes other hkey, hother, hservice]
    exact ⟨rfl, h.sound, h.sound', rfl⟩
  | none =>
    rw [hchange] at hdoes
    obtain ⟨reading, hreads, haction⟩ := hdoes
    rw [haction service rfl, haction other hkey]
    exact ⟨(hreads.answers h).1, hreads.alike h⟩

end Steps

end Service

end Questlog
