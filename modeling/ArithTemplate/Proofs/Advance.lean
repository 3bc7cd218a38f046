import ArithTemplate.Proofs.Steps
import ArithTemplate.Proofs.Written.Unique

set_option autoImplicit false

open ArithTemplate.Text (bytes bytes_append)

namespace ArithTemplate

namespace Scan

-- The second place lies ahead of the first: characters were passed and their bytes counted.
def Ahead (s t : Scan) : Prop :=
  ∃ passed, s.rest = passed ++ t.rest ∧ t.position = s.position + bytes passed

theorem ahead_refl (s : Scan) : Ahead s s := ⟨[], rfl, rfl⟩

theorem ahead_place (s t : Scan) (passed : Ahead s t) : s.position ≤ t.position := by
  obtain ⟨text, _, place⟩ := passed
  omega

-- The byte at which the text ends stays where it is.
def textEnd (s : Scan) : Nat := s.position + bytes s.rest

theorem ahead_end (s t : Scan) (passed : Ahead s t) : t.textEnd = s.textEnd := by
  obtain ⟨text, rest, place⟩ := passed
  rw [textEnd, textEnd, place, rest, bytes_append]
  omega

theorem ahead_trans (s t u : Scan) (first : Ahead s t) (second : Ahead t u) : Ahead s u := by
  obtain ⟨passed, rest, place⟩ := first
  obtain ⟨passed', rest', place'⟩ := second
  refine ⟨passed ++ passed', ?_, ?_⟩
  · rw [rest, rest', List.append_assoc]
  · rw [place', place, bytes_append, Nat.add_assoc]

theorem skip_ahead (s : Scan) : Ahead s s.skipBlank :=
  ⟨_, List.takeWhile_append_dropWhile.symm, rfl⟩

theorem bump_ahead (s : Scan) : Ahead s s.bump.2 := by
  obtain ⟨position, rest⟩ := s
  cases rest with
  | nil => exact ahead_refl _
  | cons c tail => exact ⟨[c], rfl, rfl⟩

theorem eat_ahead (c : Char) (s : Scan) : Ahead s (s.eat c).2 := by
  obtain ⟨position, rest⟩ := s
  cases rest with
  | nil => exact ahead_refl _
  | cons d tail =>
      by_cases same : d = c
      · simpa only [eat, if_pos same] using ⟨[d], rfl, rfl⟩
      · simpa only [eat, if_neg same] using ahead_refl ⟨position, d :: tail⟩

theorem eaten_ahead (c : Char) (s inside : Scan) (eaten : s.skipBlank.eat c = (true, inside)) :
    Ahead s inside := by
  have opened := eat_ahead c s.skipBlank
  rw [eaten] at opened
  exact ahead_trans _ _ _ (skip_ahead s) opened

theorem symbol_ahead (s : Scan) : Ahead s s.skipBlank.bump.2 :=
  ahead_trans _ _ _ (skip_ahead s) (bump_ahead s.skipBlank)

-- A number that is read is one of the grammar, and what is passed is its text.
theorem number_passes (s after : Scan) (value : Binary64) (read : s.number = (some value, after)) :
    ∃ n : Written.Number, s.rest = n.text ++ after.rest ∧ after.position = s.position + bytes n.text ∧
      n.value = value := by
  cases scanned : Literal.scan s.rest with
  | none => simp [number, scanned] at read
  | some found =>
      obtain ⟨literal, rest⟩ := found
      obtain ⟨n, spelled, meant⟩ := Written.number_of_scan s.rest rest literal scanned
      have width : bytes s.rest - bytes rest = bytes n.text := by
        rw [spelled, bytes_append]
        omega
      simp only [number, scanned, width] at read
      cases read
      exact ⟨n, spelled, rfl, congrArg Literal.value meant⟩

theorem number_stays (s after : Scan) (read : s.number = (none, after)) : after = s := by
  cases scanned : Literal.scan s.rest with
  | none => simpa [number, scanned, eq_comm] using read
  | some found => simp [number, scanned] at read

theorem number_ahead (s : Scan) : Ahead s s.number.2 := by
  rcases read : s.number with ⟨found, after⟩
  cases found with
  | none =>
      rw [number_stays s after read]
      exact ahead_refl s
  | some value =>
      obtain ⟨n, spelled, place, _⟩ := number_passes s after value read
      exact ⟨n.text, spelled, place⟩

theorem number_moves (s after : Scan) (value : Binary64) (read : s.number = (some value, after)) :
    s.position < after.position := by
  obtain ⟨n, _, place, _⟩ := number_passes s after value read
  obtain ⟨c, tail, text, _, _⟩ := Written.number_head n
  have width := Char.utf8Size_pos c
  rw [place, text, bytes]
  omega

theorem bump_moves (s : Scan) (c : Char) (next : s.peek = some c) : s.position < s.bump.2.position := by
  obtain ⟨position, rest⟩ := s
  cases rest with
  | nil => cases next
  | cons d tail =>
      have width := Char.utf8Size_pos d
      simp only [bump]
      omega

theorem symbol_moves (s : Scan) (c : Char) (next : s.skipBlank.peek = some c) :
    s.position < s.skipBlank.bump.2.position := by
  have skipped := ahead_place _ _ (skip_ahead s)
  have moved := bump_moves _ c next
  omega

end Scan

namespace Formula

-- Readers only move forward.
theorem ahead_stepwise (strictness : Strictness) :
    Stepwise strictness fun p _ q => p.scan.Ahead q.scan where
  number p value after scanned _ := by
    have taken := Scan.number_ahead p.scan.skipBlank
    rw [scanned] at taken
    exact Scan.ahead_trans _ _ _ (Scan.skip_ahead p.scan) taken
  missing _ p _ := Scan.skip_ahead p.scan
  nested p inside f q eaten inner := by
    have passed := Scan.ahead_trans _ _ _ (Scan.eaten_ahead '(' _ _ eaten) inner
    exact Scan.ahead_trans _ _ _ passed (Scan.bump_ahead q.scan)
  blanks p f q passed := Scan.ahead_trans _ _ _ passed (Scan.skip_ahead q.scan)
  joined p left q c operation right r passed _ later _ := by
    have behind := Scan.ahead_trans _ _ _ passed (Scan.symbol_ahead q.scan)
    exact Scan.ahead_trans _ _ _ behind later

theorem sum_within_advances (strictness : Strictness) (depth : Nat) :
    Keeps (fun p _ q => p.scan.Ahead q.scan) (sumWithin strictness depth) :=
  sum_within_keeps strictness _ (ahead_stepwise strictness) depth

end Formula
end ArithTemplate
