import Bullet.Lib.Blocks

/-! # Grants and HARQ processes

The records that the scheduler hands to the MAC and keeps for each user.
-/

namespace Bullet.Mac

open Lib.Blocks

inductive DciFormat where
  | dl
  | ul
deriving DecidableEq, Repr

inductive VarTtiType where
  | srs
  | data
  | ctrl
deriving DecidableEq, Repr

structure DciInfoElementTdma where
  rnti : UInt16 := 0
  format : DciFormat := .dl
  symStart : UInt8 := 0
  numSym : UInt8 := 0
  mcs : List UInt8 := []
  tbSize : List UInt32 := []
  ndi : List UInt8 := []
  rv : List UInt8 := []
  type : VarTtiType := .srs
  bwpIndex : UInt8 := 0
  harqProcess : UInt8 := 0
  rbgBitmask : List UInt8 := []
  tpc : UInt8 := 0
deriving DecidableEq, Repr

/-- The symbols of a grant. -/
def DciInfoElementTdma.symbols (dci : DciInfoElementTdma) : Block where
  start := dci.symStart.toNat
  len := dci.numSym.toNat

structure RlcPduInfo where
  lcid : UInt8
  size : UInt32
deriving DecidableEq, Repr

structure VarTtiAllocInfo where
  isOmni : Bool := false
  dci : DciInfoElementTdma
  rlcPduInfo : List (List RlcPduInfo) := []
deriving DecidableEq, Repr

def VarTtiAllocInfo.ofDci (dci : DciInfoElementTdma) : VarTtiAllocInfo where
  dci := dci

structure SlotAllocInfo where
  numSymAlloc : UInt32 := 0
  varTtiAllocInfo : List VarTtiAllocInfo := []
deriving DecidableEq, Repr

structure PointInFTPlane where
  rbg : UInt32
  sym : UInt8
deriving DecidableEq, Repr

/-- The scheduler may use RBG `i`: no mask is set, or its entry there is 1. -/
def Usable (notchedRbgsMask : List UInt8) (i : ℕ) : Prop :=
  notchedRbgsMask = [] ∨ notchedRbgsMask[i]? = some 1

instance (notchedRbgsMask : List UInt8) (i : ℕ) : Decidable (Usable notchedRbgsMask i) :=
  inferInstanceAs (Decidable (_ ∨ _))

section Mask

variable {notchedRbgsMask : List UInt8} {n : ℕ}

/-- The RBGs of the mask with which a DCI starts, 1 everywhere if no mask is set. -/
theorem usable_of_mask {i : ℕ}
    (h : (if notchedRbgsMask.length = 0 then List.replicate n 1 else notchedRbgsMask)[i]? = some 1) :
    Usable notchedRbgsMask i := by
  split at h
  · next hNone => exact Or.inl (List.length_eq_zero_iff.mp hNone)
  · exact Or.inr h

theorem length_mask (h : notchedRbgsMask = [] ∨ notchedRbgsMask.length = n) :
    (if notchedRbgsMask.length = 0 then List.replicate n (1 : UInt8) else notchedRbgsMask).length =
      n := by
  split
  · exact List.length_replicate
  · next hSome => exact h.resolve_left fun hNil => hSome (List.length_eq_zero_iff.mpr hNil)

/-- The RBGs that are counted before an assignment are those of the mask. -/
theorem count_mask {bandwidthInRbg : UInt16}
    (h : notchedRbgsMask = [] ∨ notchedRbgsMask.length = bandwidthInRbg.toNat) :
    (if notchedRbgsMask.length > 0 then UInt32.ofNat (notchedRbgsMask.count 1)
        else bandwidthInRbg.toUInt32).toNat =
      (if notchedRbgsMask.length = 0 then List.replicate bandwidthInRbg.toNat 1
        else notchedRbgsMask).count 1 := by
  have hBw : bandwidthInRbg.toNat < 2 ^ 16 := bandwidthInRbg.toNat_lt
  rcases Nat.eq_zero_or_pos notchedRbgsMask.length with hNone | hSome
  · rw [if_neg (hNone ▸ Nat.lt_irrefl 0), if_pos hNone, List.count_replicate_self,
      UInt16.toNat_toUInt32]
  · have hLength : notchedRbgsMask.length = bandwidthInRbg.toNat :=
      h.resolve_left fun hNil => hSome.ne' (List.length_eq_zero_iff.mpr hNil)
    have hCount : notchedRbgsMask.count 1 ≤ notchedRbgsMask.length := List.count_le_length
    rw [if_pos hSome, if_neg hSome.ne', UInt32.toNat_ofNat']
    exact Nat.mod_eq_of_lt (by omega)

end Mask

inductive HarqStatus where
  | inactive
  | waitingFeedback
  | receivedFeedback
deriving DecidableEq, Repr

structure HarqProcess where
  active : Bool := false
  status : HarqStatus := .inactive
  timer : UInt8 := 0
  dciElement : Option DciInfoElementTdma := none
  rlcPduInfo : List (List RlcPduInfo) := []
  nackStreamIndexes : List UInt8 := []
deriving DecidableEq, Repr

/-- The processes of one user in one direction, by process id. -/
abbrev NrMacHarqVector := UInt8 → Option HarqProcess

structure NrMacSchedulerUeInfo where
  rnti : UInt16
  dlHarq : NrMacHarqVector
  ulHarq : NrMacHarqVector
  dlMRBRetx : UInt32 := 0
  ulMRBRetx : UInt32 := 0

abbrev UeMap := UInt16 → Option NrMacSchedulerUeInfo

/-- A HARQ process, by its user and its id there. -/
structure HarqKey where
  rnti : UInt16
  harqProcessId : UInt8
deriving DecidableEq, Repr

/-- The status that a DL feedback carries for one stream. -/
inductive StreamStatus where
  | ack
  | nack
  | none
deriving DecidableEq, Repr

structure DlHarqInfo where
  rnti : UInt16
  harqProcessId : UInt8
  harqStatus : List StreamStatus
deriving DecidableEq, Repr

def DlHarqInfo.key (f : DlHarqInfo) : HarqKey := ⟨f.rnti, f.harqProcessId⟩

inductive ReceptionStatus where
  | ok
  | notOk
  | notValid
deriving DecidableEq, Repr

structure UlHarqInfo where
  rnti : UInt16
  harqProcessId : UInt8
  receptionStatus : ReceptionStatus
deriving DecidableEq, Repr

def UlHarqInfo.key (h : UlHarqInfo) : HarqKey := ⟨h.rnti, h.harqProcessId⟩

def UlHarqInfo.isReceivedOk (h : UlHarqInfo) : Bool := h.receptionStatus == .ok

end Bullet.Mac
