import Adsbus.Core.Hex
import Adsbus.Core.Packet

/-! # Identifiers

The random identifiers of connections and of the server are valid source
identifiers. -/

namespace Adsbus

/-- `uuid_gen` on the sixteen bytes it draws: the string it stores. -/
def uuidGen (random : Cells UInt8 16) : CString :=
  let uuid := random.overwrite 6 [random.get 6 &&& 0x0f ||| 0x40]
  let uuid := uuid.overwrite 8 [uuid.get 8 &&& 0x3f ||| 0x80]
  .ofBytes (hexFromBinLower (uuid.slice 0 4) ++ ['-'.toUInt8] ++
    hexFromBinLower (uuid.slice 4 2) ++ ['-'.toUInt8] ++
    hexFromBinLower (uuid.slice 6 2) ++ ['-'.toUInt8] ++
    hexFromBinLower (uuid.slice 8 2) ++ ['-'.toUInt8] ++
    hexFromBinLower (uuid.slice 10 6))

/-- The characters of identifiers. -/
def uuidChars : Bytes := ascii "0123456789abcdef-"

theorem hexLowerTable_mem {digit : UInt8} (small : digit.toNat < 16) :
    hexLowerTable digit ∈ uuidChars := by
  have all : ∀ value : Fin 16, hexLowerTable (UInt8.ofNat value) ∈ uuidChars := by decide +kernel
  have := all ⟨digit.toNat, small⟩
  rwa [UInt8.ofNat_toNat] at this

theorem hexFromBinLower_subset (input : Bytes) : ∀ c ∈ hexFromBinLower input, c ∈ uuidChars := by
  intro c member
  obtain ⟨byte, _, member⟩ := List.mem_flatMap.mp member
  rcases List.mem_cons.mp member with rfl | member
  · exact hexLowerTable_mem (high_lt byte)
  · rw [List.mem_singleton.mp member]
    exact hexLowerTable_mem (low_lt byte)

/-- A generated identifier has 36 characters. -/
theorem uuidGen_bytes (random : Cells UInt8 16) :
    (uuidGen random).bytes.length = 36 ∧ ∀ c ∈ (uuidGen random).bytes, c ∈ uuidChars := by
  rw [uuidGen]
  generalize (random.overwrite 6 _).overwrite 8 _ = uuid
  have dash : ∀ c ∈ ['-'.toUInt8], c ∈ uuidChars := by decide +kernel
  have chars : ∀ c ∈ hexFromBinLower (uuid.slice 0 4) ++ ['-'.toUInt8] ++
      hexFromBinLower (uuid.slice 4 2) ++ ['-'.toUInt8] ++
      hexFromBinLower (uuid.slice 6 2) ++ ['-'.toUInt8] ++
      hexFromBinLower (uuid.slice 8 2) ++ ['-'.toUInt8] ++
      hexFromBinLower (uuid.slice 10 6), c ∈ uuidChars := by
    simp only [List.forall_mem_append]
    exact ⟨⟨⟨⟨⟨⟨⟨⟨hexFromBinLower_subset _, dash⟩, hexFromBinLower_subset _⟩, dash⟩,
      hexFromBinLower_subset _⟩, dash⟩, hexFromBinLower_subset _⟩, dash⟩,
      hexFromBinLower_subset _⟩
  have length : (hexFromBinLower (uuid.slice 0 4) ++ ['-'.toUInt8] ++
      hexFromBinLower (uuid.slice 4 2) ++ ['-'.toUInt8] ++
      hexFromBinLower (uuid.slice 6 2) ++ ['-'.toUInt8] ++
      hexFromBinLower (uuid.slice 8 2) ++ ['-'.toUInt8] ++
      hexFromBinLower (uuid.slice 10 6)).length = 36 := by
    simp only [List.length_append, hexFromBinLower, hexFromBin_length, List.length_singleton,
      uuid.slice_length 0 4 (by decide), uuid.slice_length 4 2 (by decide),
      uuid.slice_length 6 2 (by decide), uuid.slice_length 8 2 (by decide),
      uuid.slice_length 10 6 (by decide)]
  have noNul : (0 : UInt8) ∉ uuidChars := by decide +kernel
  rw [CString.ofBytes_bytes_of_noNul fun member => noNul (chars 0 member)]
  exact ⟨length, chars⟩

/-- A generated identifier passes `packet_validate_id`. -/
theorem packetValidateId_uuidGen (random : Cells UInt8 16) :
    packetValidateId (some (uuidGen random)) = true := by
  obtain ⟨length, chars⟩ := uuidGen_bytes random
  have printable : ∀ c ∈ uuidChars, Printable c := by decide +kernel
  rw [packetValidateId_iff, length]
  exact ⟨by decide, fun c member => printable c (chars c member)⟩

end Adsbus
