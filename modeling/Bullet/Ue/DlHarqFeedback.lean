import Bullet.Lib.PartialRun
import Bullet.Mac.Dci
import Mathlib.Logic.Function.Basic

/-! # Downlink HARQ feedback of a UE

Each stream of a transport block is decoded on its own. The PHY of the UE counts the streams of a
reception, and merges their results into one report for the MAC. A failed assertion or an access
outside of a vector is `none`.
-/

namespace Bullet.Ue

open Mac Lib.PartialRun

/-- `DlHarqInfo::HarqStatus`. -/
inductive HarqStatus where
  | ack
  | nack
  | none
deriving DecidableEq, Repr

structure DlHarqInfo where
  rnti : UInt16
  bwpIndex : UInt8
  harqProcessId : UInt8
  harqStatus : List HarqStatus
  numRetx : List UInt8
deriving DecidableEq, Repr

/-- A transport block is received, or one of its streams has been decoded. -/
inductive PhyEvent where
  | dlData (dci : DciInfoElementTdma)
  | notifyDlHarqFeedback (streamId : UInt8) (harqFeedback : HarqStatus) (harqProcessId rv : UInt8)

/-- What a PHY is configured with: `numStreams` is the number of its spectrum PHYs. -/
structure PhyConfig where
  rnti : UInt16
  bwpId : UInt8
  numStreams : ℕ

/-- A report without results. -/
def PhyConfig.noResults (c : PhyConfig) (harqProcessId : UInt8) : DlHarqInfo where
  rnti := c.rnti
  bwpIndex := c.bwpId
  harqProcessId := harqProcessId
  harqStatus := List.replicate c.numStreams .none
  numRetx := List.replicate c.numStreams 255

def DlHarqInfo.setResult (harq : DlHarqInfo) (streamId : UInt8) (harqFeedback : HarqStatus)
    (rv : UInt8) : DlHarqInfo :=
  { harq with
    harqStatus := harq.harqStatus.set streamId.toNat harqFeedback
    numRetx := harq.numRetx.set streamId.toNat rv }

/-- The streams of a DCI with a transport block. -/
def activeStreams (dci : DciInfoElementTdma) : List ℕ :=
  (List.range dci.tbSize.length).filter fun k => 0 < dci.tbSize[k]?.getD 0

/-- The DCI is for this UE, and describes each active stream. -/
def PhyConfig.Expected (c : PhyConfig) (dci : DciInfoElementTdma) : Prop :=
  dci.rnti = c.rnti ∧ ∀ k ∈ activeStreams dci,
    k < c.numStreams ∧ k < dci.ndi.length ∧ k < dci.mcs.length ∧ k < dci.rv.length

instance (c : PhyConfig) (dci : DciInfoElementTdma) : Decidable (c.Expected dci) := by
  unfold PhyConfig.Expected
  infer_instance

/-! ## The PHY -/

/-- `reported` is what the callback has been given. -/
structure NrUePhy where
  dlHarqInfo : List DlHarqInfo := []
  activeDlDataStreamsPerHarqId : UInt8 → Option UInt8 := fun _ => none
  reported : List DlHarqInfo := []

namespace NrUePhy

/-- One active stream: a process that has been counted is set to one, another is increased. -/
def countStream (streams : UInt8 → Option UInt8) (harqProcess : UInt8) : UInt8 → Option UInt8 :=
  match streams harqProcess with
  | some _ => Function.update streams harqProcess (some 1)
  | none => Function.update streams harqProcess (some (0 + 1))

def dlData (c : PhyConfig) (s : NrUePhy) (dci : DciInfoElementTdma) : Option NrUePhy :=
  if c.Expected dci ∧ s.dlHarqInfo = [] then
    some { s with
      activeDlDataStreamsPerHarqId := (activeStreams dci).foldl
        (fun streams _ => countStream streams dci.harqProcess) (fun _ => none) }
  else none

/-- The entry of the process, which is created if it is missing. -/
def entry (c : PhyConfig) (s : NrUePhy) (harqProcessId : UInt8) : DlHarqInfo :=
  (s.dlHarqInfo.find? fun h => h.harqProcessId = harqProcessId).getD (c.noResults harqProcessId)

def notifyDlHarqFeedback (c : PhyConfig) (s : NrUePhy) (streamId : UInt8)
    (harqFeedback : HarqStatus) (harqProcessId rv : UInt8) : Option NrUePhy :=
  if (s.entry c harqProcessId).harqStatus[streamId.toNat]? = some .none then
    let harq := (s.entry c harqProcessId).setResult streamId harqFeedback rv
    let others := s.dlHarqInfo.filter fun h => h.harqProcessId ≠ harqProcessId
    let feedbackCounter := UInt8.ofNat (harq.harqStatus.countP (· ≠ .none))
    (s.activeDlDataStreamsPerHarqId harqProcessId).map fun streams =>
      if feedbackCounter = streams then
        { s with dlHarqInfo := others, reported := s.reported ++ [harq] }
      else { s with dlHarqInfo := others ++ [harq] }
  else none

def step (c : PhyConfig) (s : NrUePhy) : PhyEvent → Option NrUePhy
  | .dlData dci => s.dlData c dci
  | .notifyDlHarqFeedback streamId harqFeedback harqProcessId rv =>
    s.notifyDlHarqFeedback c streamId harqFeedback harqProcessId rv

end NrUePhy

/-! ## What is to be reported -/

/-- A reception, with the active streams that have no result yet and the results so far. -/
structure Reception where
  harqProcess : UInt8
  outstanding : List ℕ
  info : DlHarqInfo
deriving DecidableEq

/-- The receptions that wait for results, and the reports of those that have all. -/
structure Receptions where
  waiting : List Reception := []
  reported : List DlHarqInfo := []

namespace Receptions

/-- A reception of a process that does not wait for results. -/
def receive (c : PhyConfig) (s : Receptions) (dci : DciInfoElementTdma) : Option Receptions :=
  if c.Expected dci ∧ ∀ r ∈ s.waiting, r.harqProcess ≠ dci.harqProcess then
    some { s with waiting := s.waiting ++ (if activeStreams dci = [] then []
      else [⟨dci.harqProcess, activeStreams dci, c.noResults dci.harqProcess⟩]) }
  else none

/-- A result for a stream that has none; the last one completes the report. -/
def result (s : Receptions) (streamId : UInt8) (harqFeedback : HarqStatus)
    (harqProcessId rv : UInt8) : Option Receptions :=
  match s.waiting.find? fun r => r.harqProcess = harqProcessId with
  | some r =>
    if streamId.toNat ∈ r.outstanding ∧ harqFeedback ≠ .none then
      let others := s.waiting.filter fun r => r.harqProcess ≠ harqProcessId
      let info := r.info.setResult streamId harqFeedback rv
      let outstanding := r.outstanding.erase streamId.toNat
      some (if outstanding = [] then { waiting := others, reported := s.reported ++ [info] }
        else { s with waiting := others ++ [⟨harqProcessId, outstanding, info⟩] })
    else none
  | none => none

def step (c : PhyConfig) (s : Receptions) : PhyEvent → Option Receptions
  | .dlData dci => s.receive c dci
  | .notifyDlHarqFeedback streamId harqFeedback harqProcessId rv =>
    s.result streamId harqFeedback harqProcessId rv

/-- A reception has one active stream at most, and finds no result outstanding. -/
def Met (s : Receptions) : PhyEvent → Prop
  | .dlData dci => (activeStreams dci).length ≤ 1 ∧ s.waiting = []
  | .notifyDlHarqFeedback .. => True

instance (s : Receptions) : (ev : PhyEvent) → Decidable (s.Met ev)
  | .dlData dci => inferInstanceAs (Decidable ((activeStreams dci).length ≤ 1 ∧ s.waiting = []))
  | .notifyDlHarqFeedback .. => inferInstanceAs (Decidable True)

end Receptions

/-! ## Receptions of one stream -/

/-- The PHY agrees with what is to be reported: at most one reception waits, for its only stream. -/
structure Agrees (c : PhyConfig) (a : Receptions) (s : NrUePhy) : Prop where
  dlHarqInfo : s.dlHarqInfo = []
  reported : s.reported = a.reported
  waiting : a.waiting = [] ∨ ∃ p k, a.waiting = [⟨p, [k], c.noResults p⟩] ∧ k < c.numStreams ∧
    s.activeDlDataStreamsPerHarqId p = some 1

variable {c : PhyConfig} {a a' : Receptions} {s : NrUePhy}

theorem agrees_dlData {dci : DciInfoElementTdma} (h : Agrees c a s)
    (hMet : a.Met (.dlData dci)) (hStep : a.receive c dci = some a') :
    ∃ s', s.dlData c dci = some s' ∧ Agrees c a' s' := by
  obtain ⟨hOne, hWaiting⟩ := hMet
  unfold Receptions.receive at hStep
  split at hStep
  case isFalse => cases hStep
  case isTrue hReceived =>
  obtain ⟨hExpected, -⟩ := hReceived
  cases hStep
  refine ⟨_, if_pos ⟨hExpected, h.dlHarqInfo⟩, h.dlHarqInfo, h.reported, ?_⟩
  rcases hActive : activeStreams dci with _ | ⟨k, _ | ⟨j, l⟩⟩
  · left
    simp [hWaiting]
  · right
    have hStream : k < c.numStreams := (hExpected.2 k (by simp [hActive])).1
    refine ⟨dci.harqProcess, k, by simp [hWaiting], hStream, ?_⟩
    simp [NrUePhy.countStream]
  · rw [hActive] at hOne
    simp at hOne

/-- The result of the only stream completes the report. -/
theorem agrees_feedback {streamId harqProcessId rv : UInt8} {harqFeedback : HarqStatus}
    (h : Agrees c a s) (hStep : a.result streamId harqFeedback harqProcessId rv = some a') :
    ∃ s', s.notifyDlHarqFeedback c streamId harqFeedback harqProcessId rv = some s' ∧
      Agrees c a' s' := by
  unfold Receptions.result at hStep
  split at hStep
  case h_2 => cases hStep
  case h_1 r hFound =>
  split at hStep
  case isFalse => cases hStep
  case isTrue hResult =>
  obtain ⟨hMem, hSome⟩ := hResult
  rcases h.waiting with hNone | ⟨p, k, hWaiting, hStream, hCount⟩
  · rw [hNone] at hFound
    cases hFound
  rw [hWaiting, List.find?_singleton] at hFound
  split at hFound
  case isFalse => cases hFound
  case isTrue hProcess =>
  cases hFound
  have hProcess : p = harqProcessId := of_decide_eq_true hProcess
  subst hProcess
  have hK : streamId.toNat = k := List.mem_singleton.mp hMem
  subst hK
  have hEntry : s.entry c p = c.noResults p := by
    rw [NrUePhy.entry, h.dlHarqInfo]
    rfl
  have hFree : (c.noResults p).harqStatus[streamId.toNat]? = some .none := by
    simp [PhyConfig.noResults, hStream]
  have hResults : ((c.noResults p).setResult streamId harqFeedback rv).harqStatus.countP
      (· ≠ .none) = 1 := by
    simp [PhyConfig.noResults, DlHarqInfo.setResult, List.countP_set, hStream, hSome]
  have hOthers : a.waiting.filter (fun r => r.harqProcess ≠ p) = [] := by
    simp [hWaiting]
  have hErased : [streamId.toNat].erase streamId.toNat = [] := List.erase_cons_head _ _
  dsimp only at hStep
  rw [hErased, if_pos rfl, hOthers] at hStep
  cases hStep
  refine ⟨{ s with
    dlHarqInfo := []
    reported := s.reported ++ [(c.noResults p).setResult streamId harqFeedback rv] }, ?_, ?_⟩
  · rw [NrUePhy.notifyDlHarqFeedback, hEntry, if_pos hFree, hCount]
    dsimp only
    rw [hResults, h.dlHarqInfo]
    rfl
  · constructor
    · rfl
    · exact congrArg (· ++ _) h.reported
    · exact Or.inl rfl

theorem agrees_step (ev : PhyEvent) (h : Agrees c a s) (hMet : a.Met ev)
    (hStep : a.step c ev = some a') : ∃ s', s.step c ev = some s' ∧ Agrees c a' s' := by
  cases ev with
  | dlData dci => exact agrees_dlData h hMet hStep
  | notifyDlHarqFeedback streamId harqFeedback harqProcessId rv => exact agrees_feedback h hStep

theorem agrees_run {evs : List PhyEvent} (h : Agrees c a s)
    (hMet : StepsMeet (Receptions.step c) Receptions.Met a evs)
    (hRun : run (Receptions.step c) a evs = some a') :
    ∃ s', run (NrUePhy.step c) s evs = some s' ∧ Agrees c a' s' := by
  induction evs generalizing a s with
  | nil =>
    cases hRun
    exact ⟨s, rfl, h⟩
  | cons ev evs ih =>
    obtain ⟨b, hStep, hRest⟩ := Option.bind_eq_some_iff.mp hRun
    obtain ⟨t, hT, hAgrees⟩ := agrees_step ev h hMet.1 hStep
    obtain ⟨s', hRun', hEnd⟩ := ih hAgrees (hMet.2 b hStep) hRest
    refine ⟨s', ?_, hEnd⟩
    rw [run_cons, hT]
    exact hRun'

/-- Receptions with at most one active stream that do not overlap are reported as they should be,
and no assertion fails. -/
theorem reports_of_single_streams (evs : List PhyEvent)
    (hMet : StepsMeet (Receptions.step c) Receptions.Met {} evs)
    (hRun : run (Receptions.step c) {} evs = some a) :
    ∃ s, run (NrUePhy.step c) {} evs = some s ∧ s.reported = a.reported := by
  have hStart : Agrees c {} {} := ⟨rfl, rfl, Or.inl rfl⟩
  obtain ⟨s, hRun', hEnd⟩ := agrees_run hStart hMet hRun
  exact ⟨s, hRun', hEnd.reported⟩

/-- Two streams, and a data DCI for the given ones. -/
def twoStreams : PhyConfig := ⟨1, 0, 2⟩

def dataDci (tbSize : List UInt32) (harqProcess : UInt8) : DciInfoElementTdma :=
  { rnti := 1, mcs := [9, 9], tbSize := tbSize, ndi := [1, 1], rv := [0, 0],
    harqProcess := harqProcess }

/-- Two processes in turn, the second one on the second stream alone. -/
theorem reports_of_two_processes :
    ∃ s, run (NrUePhy.step twoStreams) {}
        [.dlData (dataDci [100, 0] 3), .notifyDlHarqFeedback 0 .nack 3 0,
          .dlData (dataDci [0, 80] 4), .notifyDlHarqFeedback 1 .ack 4 0] = some s ∧
      s.reported = [⟨1, 0, 3, [.nack, .none], [0, 255]⟩, ⟨1, 0, 4, [.none, .ack], [255, 0]⟩] :=
  reports_of_single_streams (a := { reported :=
      [⟨1, 0, 3, [.nack, .none], [0, 255]⟩, ⟨1, 0, 4, [.none, .ack], [255, 0]⟩] })
    _ (by decide +kernel) rfl

/-- The result of the first of two active streams is reported at once, and the other one again. -/
theorem two_streams_reported_twice :
    ¬ ∀ (c : PhyConfig) (evs : List PhyEvent) (a : Receptions),
      run (Receptions.step c) {} evs = some a →
        ∃ s, run (NrUePhy.step c) {} evs = some s ∧ s.reported = a.reported := by
  intro hAll
  obtain ⟨s, hRun, hReported⟩ := hAll twoStreams
    [.dlData (dataDci [100, 100] 3), .notifyDlHarqFeedback 0 .ack 3 0,
      .notifyDlHarqFeedback 1 .ack 3 0] _ rfl
  have hTwice : (run (NrUePhy.step twoStreams) {}
      [.dlData (dataDci [100, 100] 3), .notifyDlHarqFeedback 0 .ack 3 0,
        .notifyDlHarqFeedback 1 .ack 3 0]).map (·.reported) =
      some [⟨1, 0, 3, [.ack, .none], [0, 255]⟩, ⟨1, 0, 3, [.none, .ack], [255, 0]⟩] := by
    decide +kernel
  rw [hRun] at hTwice
  rw [Option.map_some, hReported] at hTwice
  exact absurd hTwice (by decide +kernel)

end Bullet.Ue
