import Bullet.Mac.UlQueues
import Mathlib.Data.List.Forall2
import Mathlib.Logic.Function.Basic

/-! # Scheduling requests

A user that asks for a grant is given a fixed amount in each of its groups, in place of what was
recorded there. A failed assertion, an abort or an access to an unknown user is `none`.
-/

namespace Bullet.Mac

/-- The uplink groups of each user. -/
abbrev UlLcgMap := UInt16 → Option (List NrMacSchedulerLCG)

/-- The groups of one user; mode 4 takes the true buffer of the user. -/
def serveRequest (scheduleMode : ℕ) (idealBsr : UInt32) (ulLCG : List NrMacSchedulerLCG) :
    Option (List NrMacSchedulerLCG) :=
  if scheduleMode ≠ 4 then scheduleUlSr ulLCG
  else ulLCG.mapM fun g => g.updateInfo idealBsr

def doScheduleUlSr (scheduleMode : ℕ) (idealBsrMap : UInt16 → UInt32) (spoint : PointInFTPlane)
    (ueMap : UlLcgMap) (rntiList : List UInt16) : Option UlLcgMap :=
  if spoint.rbg = 0 then
    rntiList.foldlM (fun ueMap v => do
      let ulLCG ← ueMap v
      let served ← serveRequest scheduleMode (idealBsrMap v) ulLCG
      some (Function.update ueMap v (some served))) ueMap
  else none

/-! ## What a request leaves -/

namespace NrMacSchedulerLCG

variable {g : NrMacSchedulerLCG} {lc : NrMacSchedulerLC}

/-- The group with 12 bytes, and the proactive demand, in place of its transmission queue. -/
def served (g : NrMacSchedulerLCG) : NrMacSchedulerLCG :=
  { g with lcMap := g.lcMap.map fun lc =>
    { lc with rlcTransmissionQueueSize := 12 + lc.proactiveQueueSize } }

theorem served_served (g : NrMacSchedulerLCG) : g.served.served = g.served := by
  simp [served]

theorem totalSize_sub_reactiveTotalSize (hLcs : g.lcMap = [lc]) :
    12 + g.totalSize - g.reactiveTotalSize = 12 + lc.proactiveQueueSize := by
  simp only [totalSize, reactiveTotalSize, hLcs, List.map_singleton, List.sum_singleton,
    NrMacSchedulerLC.totalSize, NrMacSchedulerLC.reactiveTotalSize]
  grind

theorem updateInfo_eq_served (hOne : g.lcMap.length = 1) :
    g.updateInfo (12 + g.totalSize - g.reactiveTotalSize) = some g.served := by
  obtain ⟨lc, hLcs⟩ := List.length_eq_one_iff.mp hOne
  have hPart : g.lcIdPart (12 + lc.proactiveQueueSize) = some (12 + lc.proactiveQueueSize) := by
    rw [lcIdPart, hOne, if_neg (by decide)]
    exact congrArg some (UInt32.div_one)
  rw [totalSize_sub_reactiveTotalSize hLcs, updateInfo, hPart]
  simp [served, hLcs]

end NrMacSchedulerLCG

theorem scheduleUlSr_eq_served {ulLCG : List NrMacSchedulerLCG} (hOne : OneChannel ulLCG) :
    scheduleUlSr ulLCG = some (ulLCG.map NrMacSchedulerLCG.served) :=
  Lib.PartialRun.mapM_eq_map fun g hG => NrMacSchedulerLCG.updateInfo_eq_served (hOne g hG)

/-- The groups of every user on the list are served, however often it is listed. -/
theorem serveRequests_eq {step : UlLcgMap → UInt16 → Option UlLcgMap} {ueMap : UlLcgMap}
    {rntiList : List UInt16}
    (hStep : ∀ ueMap v ulLCG, ueMap v = some ulLCG → OneChannel ulLCG →
      step ueMap v = some (Function.update ueMap v (some (ulLCG.map NrMacSchedulerLCG.served))))
    (hKnown : ∀ v ∈ rntiList, ∃ ulLCG, ueMap v = some ulLCG ∧ OneChannel ulLCG) :
    ∃ ueMap', rntiList.foldlM step ueMap = some ueMap' ∧ ∀ v, ueMap' v =
      if v ∈ rntiList then (ueMap v).map (List.map NrMacSchedulerLCG.served) else ueMap v := by
  induction rntiList generalizing ueMap with
  | nil => exact ⟨ueMap, rfl, fun v => rfl⟩
  | cons v rntiList ih =>
    obtain ⟨ulLCG, hV, hOne⟩ := hKnown v List.mem_cons_self
    have hFirst := hStep ueMap v ulLCG hV hOne
    have hOne' : OneChannel (ulLCG.map NrMacSchedulerLCG.served) := by
      intro g hG
      obtain ⟨g, hMem, rfl⟩ := List.mem_map.mp hG
      exact (List.length_map _).trans (hOne g hMem)
    have hRest : ∀ w ∈ rntiList, ∃ groups, Function.update ueMap v
        (some (ulLCG.map NrMacSchedulerLCG.served)) w = some groups ∧ OneChannel groups := by
      intro w hW
      rcases eq_or_ne w v with rfl | hNe
      · exact ⟨_, Function.update_self .., hOne'⟩
      · rw [Function.update_of_ne hNe]
        exact hKnown w (List.mem_cons_of_mem v hW)
    obtain ⟨ueMap', hRun, hAfter⟩ := ih hRest
    refine ⟨ueMap', ?_, ?_⟩
    · rw [List.foldlM_cons, hFirst]
      exact hRun
    · intro w
      rw [hAfter w]
      rcases eq_or_ne w v with rfl | hNe
      · rw [Function.update_self, if_pos List.mem_cons_self, hV, Option.map_some, Option.map_some,
          List.map_map]
        have hTwice : NrMacSchedulerLCG.served ∘ NrMacSchedulerLCG.served =
            NrMacSchedulerLCG.served := funext NrMacSchedulerLCG.served_served
        rw [hTwice, ite_self]
      · simp only [Function.update_of_ne hNe, List.mem_cons, hNe, false_or]

/-- One group before and after a request. The reactive queue is replaced. -/
structure Requested (g g' : NrMacSchedulerLCG) : Prop where
  id : g'.id = g.id
  channel : ∃ lc, g.lcMap = [lc] ∧ g'.lcMap =
    [{ lc with rlcTransmissionQueueSize := 12 + lc.proactiveQueueSize }]
  total : ∀ lc ∈ g'.lcMap, 12 ≤ lc.rlcTransmissionQueueSize.toNat +
    lc.rlcRetransmissionQueueSize.toNat + lc.rlcStatusPduSize.toNat + lc.proactiveQueueSize.toNat
  totalSize : ∀ lc ∈ g'.lcMap,
    lc.rlcTransmissionQueueSize.toNat + lc.rlcRetransmissionQueueSize.toNat +
      lc.rlcStatusPduSize.toNat + lc.proactiveQueueSize.toNat < 2 ^ 32 → 12 ≤ g'.totalSize

theorem requested_served {g : NrMacSchedulerLCG} (hOne : g.lcMap.length = 1) :
    Requested g g.served := by
  obtain ⟨lc, hLcs⟩ := List.length_eq_one_iff.mp hOne
  have hServed : g.served.lcMap =
      [{ lc with rlcTransmissionQueueSize := 12 + lc.proactiveQueueSize }] := by
    simp [NrMacSchedulerLCG.served, hLcs]
  have hTwelve : (12 : UInt32).toNat = 12 := by decide
  have hQueue := UInt32.toNat_add 12 lc.proactiveQueueSize
  have hBound := UInt32.toNat_lt lc.proactiveQueueSize
  have hTotal : 12 ≤ (12 + lc.proactiveQueueSize).toNat + lc.rlcRetransmissionQueueSize.toNat +
      lc.rlcStatusPduSize.toNat + lc.proactiveQueueSize.toNat := by
    omega
  refine ⟨rfl, ⟨lc, hLcs, hServed⟩, ?_, ?_⟩
  · intro lc' hLc'
    rw [hServed, List.mem_singleton] at hLc'
    subst hLc'
    exact hTotal
  · intro lc' hLc' hFits
    rw [hServed, List.mem_singleton] at hLc'
    subst hLc'
    dsimp only at hFits
    rw [NrMacSchedulerLCG.totalSize, hServed, List.map_singleton, List.sum_singleton,
      NrMacSchedulerLC.totalSize, UInt32.le_iff_toNat_le]
    simp only [UInt32.toNat_add _ lc.rlcRetransmissionQueueSize,
      UInt32.toNat_add _ lc.rlcStatusPduSize,
      UInt32.toNat_add (_ + lc.rlcStatusPduSize) lc.proactiveQueueSize]
    omega

/-- Scheduling requests set every group of the users that ask to 12 bytes on top of the proactive
demand, leave the proactive demand as it is, and leave all other users as they are. -/
theorem doScheduleUlSr_spec {scheduleMode : ℕ} (idealBsrMap : UInt16 → UInt32)
    {spoint : PointInFTPlane} {ueMap : UlLcgMap} {rntiList : List UInt16}
    (hMode : scheduleMode ≠ 4) (hRbg : spoint.rbg = 0)
    (hKnown : ∀ v ∈ rntiList, ∃ ulLCG, ueMap v = some ulLCG ∧ OneChannel ulLCG) :
    ∃ ueMap', doScheduleUlSr scheduleMode idealBsrMap spoint ueMap rntiList = some ueMap' ∧
      (∀ v ∉ rntiList, ueMap' v = ueMap v) ∧
      ∀ v ∈ rntiList, ∀ ulLCG, ueMap v = some ulLCG →
        ∃ ulLCG', ueMap' v = some ulLCG' ∧ List.Forall₂ Requested ulLCG ulLCG' := by
  have hStep : ∀ (ueMap : UlLcgMap) v ulLCG, ueMap v = some ulLCG → OneChannel ulLCG →
      (do
        let ulLCG ← ueMap v
        let served ← serveRequest scheduleMode (idealBsrMap v) ulLCG
        some (Function.update ueMap v (some served))) =
      some (Function.update ueMap v (some (ulLCG.map NrMacSchedulerLCG.served))) := by
    intro ueMap v ulLCG hV hOne
    rw [hV, Option.bind_eq_bind, Option.bind_some, serveRequest, if_pos hMode,
      scheduleUlSr_eq_served hOne]
    rfl
  obtain ⟨ueMap', hRun, hAfter⟩ := serveRequests_eq hStep hKnown
  refine ⟨ueMap', (if_pos hRbg).trans hRun, ?_, ?_⟩
  · intro v hV
    rw [hAfter v, if_neg hV]
  · intro v hV ulLCG hUlLCG
    obtain ⟨ulLCG', hSame, hOne⟩ := hKnown v hV
    cases hUlLCG.symm.trans hSame
    refine ⟨ulLCG.map NrMacSchedulerLCG.served, ?_, ?_⟩
    · rw [hAfter v, if_pos hV, hUlLCG]
      rfl
    · rw [List.forall₂_map_right_iff, List.forall₂_same]
      exact fun g hG => requested_served (hOne g hG)

/-- One user with a group of `queue` reactive and `proactive` bytes. -/
def oneUser (queue proactive : UInt32) : UlLcgMap :=
  Function.update (fun _ => none) 1 (some [⟨2, [⟨3, queue, 0, 0, proactive⟩]⟩])

theorem doScheduleUlSr_spec_one :
    ∃ ueMap', doScheduleUlSr 3 (fun _ => 0) ⟨0, 4⟩ (oneUser 5 300) [1, 1] = some ueMap' ∧
      (∀ v ∉ ([1, 1] : List UInt16), ueMap' v = oneUser 5 300 v) ∧
      ∀ v ∈ ([1, 1] : List UInt16), ∀ ulLCG, oneUser 5 300 v = some ulLCG →
        ∃ ulLCG', ueMap' v = some ulLCG' ∧ List.Forall₂ Requested ulLCG ulLCG' := by
  apply doScheduleUlSr_spec (fun _ => 0) (by decide) rfl
  intro v hV
  have hOne : v = 1 := by simpa using hV
  subst hOne
  exact ⟨_, rfl, List.forall_mem_singleton.mpr rfl⟩

/-- The request of a user with 1000 bytes reported leaves 12. -/
theorem request_lowers_queue :
    ((doScheduleUlSr 3 (fun _ => 0) ⟨0, 4⟩ (oneUser 1000 0) [1]).bind fun ueMap => ueMap 1) =
        some [⟨2, [⟨3, 12, 0, 0, 0⟩]⟩] ∧
      oneUser 1000 0 1 = some [⟨2, [⟨3, 1000, 0, 0, 0⟩]⟩] ∧
      NrMacSchedulerLCG.reactiveTotalSize ⟨2, [⟨3, 12, 0, 0, 0⟩]⟩ <
        NrMacSchedulerLCG.reactiveTotalSize ⟨2, [⟨3, 1000, 0, 0, 0⟩]⟩ := by
  decide +kernel

end Bullet.Mac
