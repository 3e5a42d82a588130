import NrfKit.Tools.OpenOcdBackup

/- The two places that put ranges together: `_merged` of `tools/nrfkit_tools/sdk.py`, by which
   the ranges of an ELF file and of a HEX file are compared, and the loop of `_backup_ranges`
   in `openocd_cli.py`, by which the dumps of a backup are chosen. Both go through the sorted
   ranges and extend the last one they have.

   What comes out depends on the addresses alone (`merged_canonical`). -/
namespace NrfKit.Tools.Merging
open Python Spans Sdk OpenOcd

/-- One round of `_backup_ranges`: `merged[-1][1] = max(end, merged[-1][1])`. -/
def backupRound (merged : List Span) (s : Span) : List Span :=
  match merged.getLast? with
  | some last => if s.1 ≤ last.2 then merged.dropLast ++ [(last.1, max s.2 last.2)]
    else merged ++ [s]
  | none => merged ++ [s]

/-- The loop of `_backup_ranges`. -/
def backupMerged (ranges : List Span) : List Span := (sorted ranges).foldl backupRound []

/-- The loop of `_merged` gives what `merged` is. -/
theorem merged_eq_foldl (ranges : List Span) :
    merged ranges = (sorted ranges).foldl mergeRound [] :=
  (foldl_mergeRound_nil (sorted ranges)).symm

theorem backupRound_eq : backupRound = mergeRound := by
  funext result s
  unfold backupRound mergeRound
  cases result.getLast? with
  | none => rfl
  | some last => simp only [max_comm]

theorem backupMerged_eq (ranges : List Span) : backupMerged ranges = merged ranges := by
  rw [backupMerged, backupRound_eq, merged_eq_foldl]

/-- What is put together is a normal form of the addresses: sorted, with gaps, and it covers the
ranges. A backup dumps just that. -/
theorem merged_canonical {ranges others : List Span} (h : ∀ s ∈ ranges, s.1 < s.2)
    (h' : ∀ s ∈ others, s.1 < s.2) :
    (merged ranges = merged others ↔ ∀ a, Covers ranges a ↔ Covers others a) ∧
    Separated (merged ranges) ∧ (∀ a, Covers (merged ranges) a ↔ Covers ranges a) ∧
    backupMerged ranges = merged ranges ∧
    ∀ {digest : List UInt8 → String} {openocd : Tool} {dir : RunDir} {w w' : World}
      {target : Identity} {items : List Value},
      Documented openocd → backupRanges digest openocd dir ranges w = .ok ((target, items), w') →
      items = receipts digest dir w.memory 0 (backupMerged ranges) := by
  refine ⟨coalesce_sorted_eq h h', separated_coalesce_sorted h, fun _ => covers_coalesce_sorted,
    backupMerged_eq ranges, ?_⟩
  intro digest openocd dir w w' target items hdocumented hbackup
  obtain ⟨_, _, _, _, _, hitems, _⟩ := backupRanges_ok hdocumented hbackup
  rw [backupMerged_eq]
  exact hitems

/-- Touching, nested and repeated ranges in two orders. -/
theorem merged_canonical_touching :
    merged [(16, 32), (0, 16), (0, 8), (48, 64)] = merged [(48, 64), (4, 32), (0, 32), (48, 64)] :=
  (merged_canonical (by decide) (by decide)).1.mpr (by
    intro a
    simp only [covers_cons, covers_nil, Span.Holds, or_false]
    omega)

end NrfKit.Tools.Merging
