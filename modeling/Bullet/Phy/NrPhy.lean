import Bullet.Lib.Rekey
import Bullet.Mac.Dci
import Bullet.Phy.SfnSf

/-! # The stored slots and packet bursts of a PHY

A PHY keeps the allocations of the coming slots and, by slot, symbol start and stream, the packets
to be sent there. When a slot is postponed every stored slot moves on by one. `none` is an assertion
that fails. Bursts are objects: two of them differ even when they hold the same packets.
-/

namespace Bullet.Phy

open Lib.Rekey Mac

/-- A burst is the object created as the `id`-th of its PHY. -/
structure PacketBurst (P : Type) where
  id : ℕ
  packets : List P := []
deriving DecidableEq, Repr

def PacketBurst.addPacket {P : Type} (b : PacketBurst P) (p : P) : PacketBurst P :=
  { b with packets := b.packets ++ [p] }

inductive AllocationType where
  | none
  | dl
  | ul
  | both
deriving DecidableEq, Repr

/-- What a slot allocates, and the slot. -/
structure SlotAllocInfo extends Mac.SlotAllocInfo where
  type : AllocationType := .none
  sfnSf : SfnSf := {}
deriving DecidableEq, Repr

structure NrPhy (P : Type) where
  numerology : UInt8
  slotAllocInfo : List SlotAllocInfo := []
  packetBurstMap : UInt64 → Option (PacketBurst P) := fun _ => none
  created : ℕ := 0

namespace SfnSf

def getNumerology (x : SfnSf) : Option UInt8 :=
  if x.numerology ≤ 5 then some x.numerology else none

/-- The assertion that a slot is one of the PHY's numerology. -/
def numerologyIs (x : SfnSf) (numerology : UInt8) : Option Unit := do
  let own ← x.getNumerology
  if own = numerology then some () else none

end SfnSf

namespace NrPhy

variable {P : Type}

def setMacPdu (phy : NrPhy P) (p : P) (sfn : SfnSf) (symStart streamId : UInt8) :
    Option (NrPhy P) := do
  sfn.numerologyIs phy.numerology
  let key := sfn.getEncForStreamWithSymStart streamId symStart
  let (burst, created) := match phy.packetBurstMap key with
    | some b => (b, phy.created)
    | none => ({ id := phy.created }, phy.created + 1)
  some { phy with
    packetBurstMap := fun k => if k = key then some (burst.addPacket p) else phy.packetBurstMap k
    created := created }

/-- The burst is taken out of the map. -/
def getPacketBurst (phy : NrPhy P) (sfn : SfnSf) (sym streamId : UInt8) :
    Option (Option (PacketBurst P) × NrPhy P) := do
  sfn.numerologyIs phy.numerology
  let key := sfn.getEncForStreamWithSymStart streamId sym
  match phy.packetBurstMap key with
  | none => some (none, phy)
  | some pburst => some (some pburst, { phy with packetBurstMap := erase phy.packetBurstMap key })

/-- The loop variable over the streams is a byte, and so is their number. -/
def streams (dci : DciInfoElementTdma) : List UInt8 :=
  (List.range (dci.tbSize.length % 2 ^ 8)).map UInt8.ofNat

/-- The PHY and the bursts taken out so far, by the key they will be written under. -/
abbrev Moving (P : Type) := NrPhy P × (UInt64 → Option (PacketBurst P))

def moveBurst (currentSfn slotSfn : SfnSf) (symStart : UInt8) (s : Moving P) (stream : UInt8) :
    Option (Moving P) := do
  let (pburst, phy) ← s.1.getPacketBurst slotSfn symStart stream
  match pburst with
  | none => some (phy, s.2)
  | some b =>
    if 0 < b.packets.length then
      let key ← currentSfn.getEncodingWithSymStart symStart
      some (phy, insertNew s.2 key b)
    else some (phy, s.2)

def moveAlloc (currentSfn slotSfn : SfnSf) (s : Moving P) (alloc : VarTtiAllocInfo) :
    Option (Moving P) :=
  if alloc.dci.type = .data then
    (streams alloc.dci).foldlM (moveBurst currentSfn slotSfn alloc.dci.symStart) s
  else some s

/-- The loop over the slots, each of which becomes the slot after the one before it. -/
def moveSlots : List SlotAllocInfo → SfnSf → Moving P → Option (List SlotAllocInfo × Moving P)
  | [], _, s => some ([], s)
  | info :: infos, currentSfn, s => do
    let s ← info.varTtiAllocInfo.foldlM (moveAlloc currentSfn info.sfnSf) s
    let next ← currentSfn.add 1
    let (moved, s) ← moveSlots infos next s
    some ({ info with sfnSf := currentSfn } :: moved, s)

def pushFrontSlotAllocInfo (phy : NrPhy P) (newSfnSf : SfnSf) (slotAllocInfo : SlotAllocInfo) :
    Option (NrPhy P) := do
  let (infos, phy, newBursts) ←
    moveSlots (slotAllocInfo :: phy.slotAllocInfo) newSfnSf (phy, fun _ => none)
  some { phy with
    slotAllocInfo := infos
    packetBurstMap := insertAll phy.packetBurstMap newBursts }

/-- Every burst holds packets and is an object of its own. -/
structure BurstsSound (phy : NrPhy P) : Prop where
  filled : ∀ k b, phy.packetBurstMap k = some b → 0 < b.packets.length
  distinct : ∀ i j b c, phy.packetBurstMap i = some b → phy.packetBurstMap j = some c →
    b.id = c.id → i = j
  older : ∀ k b, phy.packetBurstMap k = some b → b.id < phy.created

theorem burstsSound_init (numerology : UInt8) :
    BurstsSound ({ numerology := numerology } : NrPhy P) := by
  constructor <;> intros <;> contradiction

theorem BurstsSound.getPacketBurst {phy phy' : NrPhy P} (h : phy.BurstsSound) {sfn : SfnSf}
    {sym streamId : UInt8} {pburst : Option (PacketBurst P)}
    (hGet : phy.getPacketBurst sfn sym streamId = some (pburst, phy')) : phy'.BurstsSound := by
  have hSub : (∀ k b, phy'.packetBurstMap k = some b → phy.packetBurstMap k = some b) ∧
      phy'.created = phy.created := by
    simp only [NrPhy.getPacketBurst, Option.bind_eq_bind, Option.bind_eq_some_iff] at hGet
    obtain ⟨-, -, hGet⟩ := hGet
    split at hGet
    · cases hGet
      exact ⟨fun _ _ h => h, rfl⟩
    · cases hGet
      refine ⟨?_, rfl⟩
      intro k b hAt
      simp only [erase] at hAt
      split at hAt
      · cases hAt
      · exact hAt
  constructor
  · exact fun k b hAt => h.filled k b (hSub.1 k b hAt)
  · exact fun i j b c hi hj => h.distinct i j b c (hSub.1 i b hi) (hSub.1 j c hj)
  · exact fun k b hAt => hSub.2 ▸ h.older k b (hSub.1 k b hAt)

theorem BurstsSound.setMacPdu {phy phy' : NrPhy P} (h : phy.BurstsSound) {p : P} {sfn : SfnSf}
    {symStart streamId : UInt8} (hSet : phy.setMacPdu p sfn symStart streamId = some phy') :
    phy'.BurstsSound := by
  simp only [NrPhy.setMacPdu, Option.bind_eq_bind, Option.bind_eq_some_iff] at hSet
  obtain ⟨-, -, hSet⟩ := hSet
  have hLength : ∀ b : PacketBurst P, 0 < (b.addPacket p).packets.length := by
    intro b
    simp [PacketBurst.addPacket]
  -- The burst at the key is an old one or the next to be created.
  cases hAt : phy.packetBurstMap (sfn.getEncForStreamWithSymStart streamId symStart) with
  | some old =>
    rw [hAt] at hSet
    cases hSet
    constructor
    · intro k b hb
      simp only at hb
      split at hb
      · exact Option.some.inj hb ▸ hLength old
      · exact h.filled k b hb
    · intro i j b c hi hj hId
      simp only at hi hj
      split at hi <;> split at hj
      · rw [‹i = _›, ‹j = _›]
      · cases hi
        exact ‹i = _›.trans (h.distinct _ j old c hAt hj hId)
      · cases hj
        exact (h.distinct i _ b old hi hAt hId).trans ‹j = _›.symm
      · exact h.distinct i j b c hi hj hId
    · intro k b hb
      simp only at hb
      split at hb
      · cases hb
        exact h.older _ old hAt
      · exact h.older k b hb
  | none =>
    rw [hAt] at hSet
    cases hSet
    constructor
    · intro k b hb
      simp only at hb
      split at hb
      · exact Option.some.inj hb ▸ hLength _
      · exact h.filled k b hb
    · intro i j b c hi hj hId
      simp only at hi hj
      split at hi <;> split at hj
      · rw [‹i = _›, ‹j = _›]
      · cases hi
        exact absurd (h.older j c hj) (by rw [← hId]; exact Nat.lt_irrefl _)
      · cases hj
        exact absurd (h.older i b hi) (by rw [hId]; exact Nat.lt_irrefl _)
      · exact h.distinct i j b c hi hj hId
    · intro k b hb
      simp only at hb ⊢
      split at hb
      · cases hb
        exact Nat.lt_succ_self _
      · exact (h.older k b hb).trans (Nat.lt_succ_self _)

end NrPhy
end Bullet.Phy
