import DacRack.Text

/-!
# Channels

The instrument has five slots of four channels. A channel is known by its slot
and its place in the slot, or by its position among all twenty, slot after slot.
-/

namespace DacRack

abbrev slotCount : Nat := 5

abbrev channelsPerSlot : Nat := 4

structure Channel where
  slot : Fin slotCount
  place : Fin channelsPerSlot
  deriving DecidableEq

namespace Channel

/-- The channel with these numbers, if the instrument has it. -/
def ofNumbers? (slot place : Nat) : Option Channel :=
  if hs : slot < slotCount then
    if hp : place < channelsPerSlot then some ⟨⟨slot, hs⟩, ⟨place, hp⟩⟩ else none
  else none

def index (channel : Channel) : Fin (slotCount * channelsPerSlot) :=
  ⟨channel.slot * channelsPerSlot + channel.place, by
    have hs := channel.slot.isLt
    have hp := channel.place.isLt
    simp only [slotCount, channelsPerSlot] at hs hp ⊢
    omega⟩

def ofSlot (slot : Fin slotCount) : List Channel :=
  (List.finRange channelsPerSlot).map fun place => ⟨slot, place⟩

/-- Every channel, by ascending position. -/
def all : List Channel :=
  (List.finRange slotCount).flatMap ofSlot

/-- Channels by ascending slot, and within a slot by ascending place. -/
def sort (channels : List Channel) : List Channel :=
  channels.mergeSort fun a b => a.slot < b.slot || (a.slot == b.slot && a.place ≤ b.place)

def name (channel : Channel) : String :=
  "Slot" ++ Text.decimal channel.slot.val ++ "/Chan" ++ Text.decimal channel.place.val

theorem index_injective {a b : Channel} (h : a.index = b.index) : a = b := by
  obtain ⟨s, p⟩ := a
  obtain ⟨t, q⟩ := b
  simp only [index, Fin.mk.injEq, channelsPerSlot] at h
  have hp := p.isLt
  have hq := q.isLt
  simp only [channelsPerSlot] at hp hq
  obtain rfl : s = t := Fin.ext (by omega)
  obtain rfl : p = q := Fin.ext (by omega)
  rfl

theorem mem_all (channel : Channel) : channel ∈ all := by
  simp only [all, ofSlot, List.mem_flatMap, List.mem_map]
  exact ⟨channel.slot, List.mem_finRange _, channel.place, List.mem_finRange _, rfl⟩

/-- The channels are listed by ascending position and none is left out. -/
theorem map_index_all : all.map index = List.finRange (slotCount * channelsPerSlot) := by
  decide

end Channel

end DacRack
