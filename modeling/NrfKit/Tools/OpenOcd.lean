import NrfKit.Tools.HexFormat

/- The OpenOCD transport: `tools/nrfkit_tools/openocd.py`.

   A backup is written as Intel HEX by `addressed_hex`, which takes ordinary RRAM in whole
   16-byte units only. What it writes is read back as one range with the same bytes
   (`addressedHex_read`). -/
namespace NrfKit.Tools.OpenOcd
open Python Bytes Text IntelHex Spans

def openOcdError (text : String) : Raised := ⟨"OpenOcdError", text⟩

def rramEnd : Int := 0x001FD000

/-- `addressed_hex`. -/
def addressedHex (start : Int) (data : List UInt8) : Except Raised Chars :=
  match requireAllowed [(start, start + data.length)] [spanEntry (0, rramEnd)] with
  | .error e => .error e
  | .ok _ =>
    if start % 16 ≠ 0 ∨ data.length % 16 ≠ 0 then
      .error (openOcdError "backup HEX ranges must be 16-byte aligned")
    else .ok (rowsText start.toNat data)

/-! ## Ordinary RRAM -/

theorem insideEntry_span {range s : Span} :
    insideEntry range (spanEntry s) = .ok (decide (s.1 ≤ range.1 ∧ range.2 ≤ s.2)) := by
  rw [spanEntry, insideEntry, Value.atLeast_ok.mpr rfl]
  by_cases hlow : s.1 ≤ range.1
  · simp only [hlow, decide_true, true_and]
    exact Value.atMost_ok.mpr rfl
  · simp [hlow]

/-- No forbidden region touches what lies below the end of RRAM. -/
theorem ordinary_safe {range : Span} (hstart : 0 ≤ range.1) (hsome : range.1 < range.2)
    (hend : range.2 ≤ rramEnd) :
    RangeSafe range := by
  have hsmall : range.2 ≤ 0x001FD000 := hend
  refine ⟨hstart, hsome, by omega, fun region hregion => ?_⟩
  have hbehind : ∀ region ∈ forbiddenRanges, (0x001FD000 : Int) ≤ region.1 := by decide
  have := hbehind region hregion
  omega

/-- The guard of ordinary RRAM. -/
theorem requireAllowed_ordinary {ranges : List Span} :
    requireAllowed ranges [spanEntry (0, rramEnd)] = .ok () ↔
      ∀ range ∈ ranges, 0 ≤ range.1 ∧ range.1 < range.2 ∧ range.2 ≤ rramEnd := by
  rw [requireAllowed_all]
  refine forall₂_congr fun range _ => ?_
  rw [requireRange_ok]
  have hinside : insideAny range [spanEntry (0, rramEnd)] =
      .ok (decide (0 ≤ range.1 ∧ range.2 ≤ rramEnd)) := by
    rw [insideAny, insideEntry_span]
    by_cases hin : 0 ≤ range.1 ∧ range.2 ≤ rramEnd <;> simp [hin, insideAny]
  rw [hinside]
  constructor
  · rintro ⟨hsafe, hin⟩
    have hbounds : 0 ≤ range.1 ∧ range.2 ≤ rramEnd := by simpa using hin
    exact ⟨hbounds.1, hsafe.nonempty, hbounds.2⟩
  · rintro ⟨hstart, hsome, hend⟩
    exact ⟨ordinary_safe hstart hsome hend, by simp [hstart, hend]⟩

/-! ## The backup HEX -/

/-- What `addressed_hex` takes, and the text it gives. -/
theorem addressedHex_ok {start : Int} {data : List UInt8} {text : Chars} :
    addressedHex start data = .ok text ↔
      0 ≤ start ∧ data ≠ [] ∧ start + data.length ≤ rramEnd ∧ start % 16 = 0 ∧
      data.length % 16 = 0 ∧
        text = rowsText start.toNat data := by
  unfold addressedHex
  have hsome : start < start + data.length ↔ data ≠ [] := by
    rw [← List.length_pos_iff]
    omega
  cases hguard : requireAllowed [(start, start + data.length)] [spanEntry (0, rramEnd)] with
  | error e =>
    refine ⟨nofun, fun h => ?_⟩
    have hpass : requireAllowed [(start, start + data.length)] [spanEntry (0, rramEnd)] = .ok () :=
      requireAllowed_ordinary.mpr (by simp [h.1, hsome.mpr h.2.1, h.2.2.1])
    cases hguard.symm.trans hpass
  | ok _ =>
    have hbounds :=
      requireAllowed_ordinary.mp hguard (start, start + data.length) (List.mem_singleton_self _)
    by_cases haligned : start % 16 ≠ 0 ∨ data.length % 16 ≠ 0
    · rw [if_pos haligned]
      refine ⟨nofun, fun h => ?_⟩
      omega
    · rw [if_neg haligned]
      simp only [not_or, not_not] at haligned
      constructor
      · intro h
        cases h
        exact ⟨hbounds.1, hsome.mp hbounds.2.1, hbounds.2.2, haligned.1, haligned.2, rfl⟩
      · rintro ⟨_, _, _, _, _, rfl⟩
        rfl

/-- What is written reads back as its range and its bytes. -/
theorem addressedHex_read {start : Int} {data : List UInt8} {text : Chars}
    (h : addressedHex start data = .ok text) (path : String) :
    parseIhex path (.ok text) = .ok { ranges := [(start, start + data.length)] } ∧
      ∃ records, fileRecords text = some records ∧
        ∀ cell, cell ∈ writes 0 records ↔ cell ∈ cells start.toNat data := by
  obtain ⟨hstart, hdata, hend, haligned, hlength, rfl⟩ := addressedHex_ok.mp h
  have hsmall : start + data.length ≤ 0x001FD000 := hend
  have hparse := @parseIhex_rows start.toNat data (by omega) hlength (by omega) path hdata
  rw [Int.toNat_of_nonneg hstart] at hparse
  refine ⟨hparse, ?_⟩
  obtain ⟨records, hrecords, hcells⟩ :=
    @rowsText_records start.toNat data (by omega) hlength (by omega)
  refine ⟨records, ?_, hcells⟩
  rw [rowsText_found, hrecords]

/-- The bytes of a backup come back from its HEX at their addresses, over any number of 64 KiB
boundaries. -/
theorem addressedHex_roundTrip (path : String) (start : Int) (data : List UInt8)
    (haligned : start % 16 = 0) (hdata : data ≠ []) (hlength : data.length % 16 = 0)
    (hend : start + data.length ≤ 0x1FD000) :
    (0 ≤ start → ∃ text, addressedHex start data = .ok text) ∧
    ∀ text, addressedHex start data = .ok text →
      (∃ image, parseIhex path (.ok text) = .ok image ∧
        image.ranges = [(start, start + data.length)]) ∧
      ∃ records, fileRecords text = some records ∧
        ∀ address value, (address, value) ∈ writes 0 records ↔
          ∃ index : Nat, (address : Int) = start + index ∧ data[index]? = some value := by
  constructor
  · intro hstart
    exact ⟨_, addressedHex_ok.mpr ⟨hstart, hdata, hend, haligned, hlength, rfl⟩⟩
  · intro text htext
    have hstart := (addressedHex_ok.mp htext).1
    obtain ⟨hparse, records, hrecords, hcells⟩ := addressedHex_read htext path
    refine ⟨⟨_, hparse, rfl⟩, records, hrecords, fun address value => ?_⟩
    rw [hcells, mem_cells]
    refine exists_congr fun index => and_congr_left fun _ => ?_
    omega

/-- The bytes 0 to 31 over the boundary at 0x10000. -/
theorem addressedHex_roundTrip_boundary :
    ∃ text, addressedHex 0xfff0 ((List.range 32).map UInt8.ofNat) = .ok text ∧
      (∃ image, parseIhex "backup.hex" (.ok text) = .ok image ∧
        image.ranges = [(0xfff0, 0x10010)]) ∧
      ∃ records, fileRecords text = some records ∧
        ∀ address value, (address, value) ∈ writes 0 records ↔
          ∃ index : Nat, (address : Int) = 0xfff0 + index ∧
            ((List.range 32).map UInt8.ofNat)[index]? = some value := by
  obtain ⟨haccepted, hread⟩ := addressedHex_roundTrip "backup.hex" 0xfff0
    ((List.range 32).map UInt8.ofNat) (by decide) (by decide)
    (by decide) (by decide)
  obtain ⟨text, htext⟩ := haccepted (by decide)
  exact ⟨text, htext, hread text htext⟩

end NrfKit.Tools.OpenOcd
