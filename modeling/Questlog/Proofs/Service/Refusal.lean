import Mathlib
import Questlog.Proofs.Service.Events

namespace Questlog

namespace Service

variable {service : Service}

/-- A service whose progress cannot be saved, since a file is where the directory should be. -/
def blocked : Service :=
  { checklist := {}
    title := ""
    progressKey := "ns"
    gate := Gate.new {}
    progress := { scope := "ns" }
    file := some "store/progress.json"
    disk := { files := [("store", "")] } }

/-- A service without a place for its file cannot save. -/
theorem save_blocked (progress : Progress) :
    save { blocked with progress } = (false, { blocked with progress }) := by
  have hfolder : Disk.makeFolder (Disk.around "store/progress.json") blocked.disk =
      (false, blocked.disk) := by
    cbv
  simp only [save, blocked, Progress.save, Disk.writeDeep] at hfolder ⊢
  rw [hfolder]

/-- The request to mark the key `a`. -/
def markA : Request :=
  ⟨"PUT", "/api/progress/items", some "application/json",
    "\x7b\"key\": \"a\", \"completed\": true\x7d"⟩

theorem change?_markA (progressKey : String) :
    markA.change? progressKey = some (.item ⟨"a", true⟩) := by
  have hroute : markA.route? = some .setItem := by cbv
  have hjson : markA.contentType.any MediaType.isJson = true := by cbv
  have hsize : ¬ markA.body.utf8ByteSize > Request.maxBody := by decide
  have hparse : ItemUpdate.parse markA.body = .ok ⟨"a", true⟩ := by cbv
  have hread : markA.read ItemUpdate.parse = .ok ⟨"a", true⟩ := by
    rw [Request.read, hjson, if_neg (by decide), if_neg hsize, hparse]
  rw [Request.change?, hroute]
  simp only [hread]
  rfl

/-- The mark is refused, and stays. -/
theorem answer_markA_blocked :
    answer markA blocked = (notSaved, { blocked with progress := ⟨"ns", ["a"], 0, 0, []⟩ }) := by
  rw [answer_of_change (change?_markA _), carryOut_of_saved blocked rfl, savedThen_eq, save_blocked]
  rfl

/-- The request to take over a snapshot that names no checklist. -/
def importNameless : Request :=
  { method := "POST", target := "/api/progress/import", body := "\x7b\x7d" }

/-- An import without a name is refused, and nothing changes. -/
theorem answer_importNameless (service : Service) (h : service.progressKey = "ns") :
    answer importNameless service =
      (.refusal 400 ("Import failed: " ++ ImportError.missingKey.message), service) := by
  have hroute : importNameless.route? = some .importProgress := by cbv
  have hsize : ¬ importNameless.body.utf8ByteSize > Request.maxBody := by decide
  have hkeys : Progress.importKeys importNameless.body service.progressKey = .error .missingKey := by
    rw [h]
    cbv
  rw [answer_of_route hroute]
  simp only [answerAt, if_neg hsize]
  exact importProgress_of_error hkeys

end Service

namespace Session

variable {ι : Type} [DecidableEq ι] {settings : GateSettings} {session : Session ι}
  {history : List (GateCall × GateReply)} {service : Service}

open Service

/-- A request that is refused for what it says leaves no trace. One that is refused because its
change could not be saved does: the change stays in the progress. A refused request changes nothing,
unless it is refused because its change could not be saved. The progress is what it was, the same
request is answered in the same way once more, and so is everything that comes later. The status 500
is that of a change which could not be saved, and only that; such a change is in the progress all
the same. -/
theorem Run.refused_unless_unsaved (h : Run settings session history)
    (hgate : service.gate = session.gate) (request : Request)
    (hrefused : 400 ≤ (answer request service).1.status) :
    ((answer request service).1.status ≠ 500 →
      (answer request service).2.progress = service.progress ∧
      (answer request (answer request service).2).1 = (answer request service).1 ∧
      ∀ events, (meetAll events (answer request service).2).1 = (meetAll events service).1) ∧
    ((answer request service).1.status = 500 →
      ∃ change, request.change? service.progressKey = some change ∧
        (save { service with progress := change.apply service.progress }).1 = false ∧
        (answer request service).2.progress = change.apply service.progress) := by
  have hsound : service.gate.Sound settings.anyWildcard := hgate ▸ h.gate_sound
  cases hchange : request.change? service.progressKey with
  | none =>
    obtain ⟨halike, hstatus⟩ := answer_of_no_change hsound hchange
    refine ⟨fun _ => ⟨?_, (halike.answer request).1, fun events => (halike.meetAll events).1⟩,
      fun hunsaved => absurd hunsaved hstatus⟩
    rw [halike.same]
  | some change =>
    rw [answer_of_change hchange] at hrefused ⊢
    rcases carryOut_reply change service with hreply | ⟨hunsaved, hsave⟩
    · rw [hreply, status_reply] at hrefused
      omega
    · refine ⟨fun hstatus => absurd (congrArg Response.status hunsaved) hstatus, fun _ => ?_⟩
      obtain ⟨disk, hnext⟩ := carryOut_next change service
      refine ⟨change, rfl, hsave, ?_⟩
      rw [hnext]

/-- Where nothing can be saved, a snapshot of no checklist is refused as it is elsewhere. -/
theorem Run.refused_unless_unsaved_import :
    400 ≤ (answer importNameless blocked).1.status ∧
      (answer importNameless blocked).2.progress = blocked.progress ∧
      ∀ events, (meetAll events (answer importNameless blocked).2).1 =
        (meetAll events blocked).1 := by
  have unused : Run {} (⟨blocked.gate, fun _ => none⟩ : Session Unit) [] := .start
  have hanswer := answer_importNameless blocked rfl
  have hstatus : (answer importNameless blocked).1.status = 400 := by
    rw [hanswer]
    rfl
  have hrefused : 400 ≤ (answer importNameless blocked).1.status := by omega
  obtain ⟨hleft, -⟩ := unused.refused_unless_unsaved rfl importNameless hrefused
  obtain ⟨hprogress, -, hlater⟩ := hleft (by omega)
  exact ⟨hrefused, hprogress, hlater⟩

end Session

namespace Service

/-- The mark of a request that was refused with 500 stays, and the same request is then accepted. -/
theorem refused_mark_stays :
    (answer markA blocked).1.status = 500 ∧ blocked.progress.completed = [] ∧
      (answer markA blocked).2.progress.completed = ["a"] ∧
      (answer markA (answer markA blocked).2).1.status = 200 := by
  rw [answer_markA_blocked]
  refine ⟨rfl, rfl, rfl, ?_⟩
  rw [answer_of_change (change?_markA _), carryOut_of_unsaved _ (by decide)]
  rfl

end Service

end Questlog
