import ArithTemplate.Proofs.Rounded.Significant

set_option autoImplicit false

namespace ArithTemplate

-- So many significant digits are enough to write the number.
def HasDigits (count : ℕ) (q : ℚ) : Prop :=
  ∃ (n : ℕ) (exponent : ℤ), n < 10 ^ count ∧ q = n * 10 ^ exponent

theorem has_digits_shifted (count : ℕ) (q : ℚ) (places : ℤ) (digits : HasDigits count q) :
    HasDigits count (q * 10 ^ places) := by
  obtain ⟨n, exponent, small, rfl⟩ := digits
  exact ⟨n, exponent + places, small, by rw [mul_assoc, ten_powers exponent places _ rfl]⟩

namespace Binary64

theorem read_between (code : ℕ) (p q r : ℚ) (left : ReadAs code p) (right : ReadAs code r)
    (lower : p ≤ q) (upper : q ≤ r) : ReadAs code q :=
  Nearest.between left right (mul_le_mul_of_nonneg_right lower (le_of_lt units_per_one_pos))
    (mul_le_mul_of_nonneg_right upper (le_of_lt units_per_one_pos))

theorem read_exact (code : ℕ) : ReadAs code (magnitude code) := by
  rw [ReadAs, magnitude_units, div_mul_cancel₀ _ (ne_of_gt units_per_one_pos)]
  exact .of_units code

-- A whole number on one of the grids of decimals the search goes through.
def onGrid (n scale : ℕ) : ℚ := n * 10 ^ ((scale : ℤ) - 1074)

theorem on_grid_zero (n : ℕ) : onGrid n 0 = n * 10 ^ (-1074 : ℤ) := by
  rw [onGrid]
  norm_num

theorem on_grid_whole (n scale : ℕ) : onGrid n scale = onGrid (n * 10 ^ scale) 0 := by
  rw [onGrid, on_grid_zero, Nat.cast_mul, Nat.cast_pow, mul_assoc, ← zpow_natCast, Nat.cast_ofNat,
    ten_powers scale (-1074) (scale - 1074) (by omega)]

theorem on_grid_le (m n scale : ℕ) (order : m ≤ n) : onGrid m scale ≤ onGrid n scale :=
  mul_le_mul_of_nonneg_right (Nat.cast_le.2 order) (le_of_lt (ten_power_pos _))

theorem on_grid_coarser (n scale places : ℕ) :
    onGrid n (scale + places) = onGrid (n * 10 ^ places) scale := by
  rw [on_grid_whole, on_grid_whole _ scale, Nat.mul_assoc, ← Nat.pow_add, Nat.add_comm places]

theorem nearest_read (code num den : ℕ) (q : ℚ) (positive : 0 < den)
    (scaled : (num : ℚ) = q * unitsPerOne * den) : nearestCode num den = code ↔ ReadAs code q := by
  rw [nearest_code_iff _ _ _ positive, scaled,
    mul_div_cancel_right₀ _ (ne_of_gt (Nat.cast_pos.2 positive)), ReadAs]

theorem reads_back_iff (code n scale : ℕ) : readsBack code n scale = true ↔
    nearestCode (n * Nat.pow 10 scale) (Nat.pow 5 1074) = code := by
  rw [readsBack, beq_iff_eq]
  exact eq_comm

theorem reads_back_read (code n scale : ℕ) :
    readsBack code n scale = true ↔ ReadAs code (onGrid n scale) := by
  have scaled : ((n * Nat.pow 10 scale : ℕ) : ℚ) =
      onGrid n scale * unitsPerOne * (Nat.pow 5 1074 : ℕ) := by
    rw [mul_assoc, five_units, onGrid, mul_assoc, ten_powers _ 1074 scale (by omega), Nat.cast_mul,
      cast_power, Nat.cast_ofNat]
  rw [reads_back_iff]
  generalize 1074 = places at scaled ⊢
  exact nearest_read code _ _ _ (Nat.pow_pos (by decide)) scaled

theorem magnitude_on_grid (code : ℕ) : magnitude code = onGrid (exactDigits code) 0 := by
  rw [magnitude_exact, on_grid_zero]

theorem chosen_neighbour (tie : Tie) (lower : ℕ) :
    tie.choose lower = lower ∨ tie.choose lower = lower + 1 := by
  cases tie with
  | up => exact .inr rfl
  | even =>
      simp only [Tie.choose]
      omega

section Grid

variable (tie : Tie) (code : ℕ)

-- Where both neighbours read back it does not matter which of them is taken.
theorem neighbour_cases (scale : ℕ) :
    (∃ n, neighbour tie code scale = some n ∧ ReadAs code (onGrid n scale) ∧
      n ≤ exactDigits code / 10 ^ scale + 1) ∨
    (neighbour tie code scale = none ∧
      ¬ ReadAs code (onGrid (exactDigits code / 10 ^ scale) scale) ∧
        ¬ ReadAs code (onGrid (exactDigits code / 10 ^ scale + 1) scale)) := by
  simp only [← reads_back_read]
  rw [neighbour]
  split
  · rename_i low high
    left
    dsimp only
    split
    · exact ⟨_, rfl, low, Nat.le_succ _⟩
    · split
      · exact ⟨_, rfl, high, Nat.le_refl _⟩
      · rcases chosen_neighbour tie (exactDigits code / Nat.pow 10 scale) with same | same
        · exact ⟨_, congrArg some same, low, Nat.le_succ _⟩
        · exact ⟨_, congrArg some same, high, Nat.le_refl _⟩
  · rename_i low _
    exact .inl ⟨_, rfl, low, Nat.le_succ _⟩
  · rename_i _ high
    exact .inl ⟨_, rfl, high, Nat.le_refl _⟩
  · rename_i low high
    exact .inr ⟨rfl, Bool.eq_false_iff.1 low, Bool.eq_false_iff.1 high⟩

-- Between a decimal of the grid and the exact value lies a neighbour of the exact value.
theorem neighbours_missed (scale n : ℕ)
    (low : ¬ ReadAs code (onGrid (exactDigits code / 10 ^ scale) scale))
    (high : ¬ ReadAs code (onGrid (exactDigits code / 10 ^ scale + 1) scale)) :
    ¬ ReadAs code (onGrid n scale) := by
  have itself := read_exact code
  have split := Nat.div_add_mod (exactDigits code) (10 ^ scale)
  have part := Nat.mod_lt (exactDigits code) (Nat.pow_pos (n := scale) (show 0 < 10 by decide))
  rw [magnitude_on_grid] at itself
  generalize exactDigits code / 10 ^ scale = lower at low high split
  rw [on_grid_whole] at low high ⊢
  intro read
  by_cases below : n ≤ lower
  · refine low (read_between code _ _ _ read itself ?_ ?_)
    · exact on_grid_le _ _ 0 (Nat.mul_le_mul_right _ below)
    · refine on_grid_le _ _ 0 ?_
      rw [Nat.mul_comm]
      omega
  · refine high (read_between code _ _ _ itself read ?_ ?_)
    · refine on_grid_le _ _ 0 ?_
      rw [Nat.add_mul, Nat.one_mul, Nat.mul_comm lower]
      omega
    · exact on_grid_le _ _ 0 (Nat.mul_le_mul_right _ (Nat.lt_of_not_le below))

-- The search stops at the coarsest grid, from the first on, that has a decimal that reads back.
theorem coarsest_found (first : ℕ) :
    let found := coarsest tie code first
    found.2 ≤ first ∧ ReadAs code (onGrid found.1 found.2) ∧
      found.1 ≤ exactDigits code / 10 ^ found.2 + 1 ∧
      ∀ scale, found.2 < scale → scale ≤ first → ∀ n, ¬ ReadAs code (onGrid n scale) := by
  have nothing (found first : ℕ) (inside : first ≤ found) (scale : ℕ) (above : found < scale)
      (below : scale ≤ first) : ∀ n, ¬ ReadAs code (onGrid n scale) := by omega
  induction first with
  | zero =>
      have itself := read_exact code
      rw [magnitude_on_grid] at itself
      refine ⟨Nat.le_refl _, itself, ?_, nothing _ _ (Nat.le_refl _)⟩
      rw [coarsest, pow_zero, Nat.div_one]
      exact Nat.le_succ _
  | succ first hypothesis =>
      rw [coarsest]
      rcases neighbour_cases tie code (first + 1) with ⟨n, found, read, next⟩ | ⟨found, low, high⟩
      · rw [found]
        exact ⟨Nat.le_refl _, read, next, nothing _ _ (Nat.le_refl _)⟩
      · rw [found]
        obtain ⟨inside, read, next, coarser⟩ := hypothesis
        refine ⟨Nat.le_succ_of_le inside, read, next, ?_⟩
        intro scale above below
        rcases Nat.lt_or_eq_of_le below with lower | same
        · exact coarser scale above (Nat.le_of_lt_succ lower)
        · exact fun n => same ▸ neighbours_missed code (first + 1) n low high

end Grid

-- A shortest decimal of a number: it is read as the number, its last digit counts, and no decimal
-- that is read as the number has fewer digits.
structure Shortest (code : ℕ) (d : Decimal) : Prop where
  read : ReadAs code d.rational
  last : d.coefficient % 10 ≠ 0
  fewest : ∀ count q, ReadAs code q → HasDigits count q → HasDigits count d.rational

theorem read_nonzero (code : ℕ) (nonzero : code ≠ 0) : ¬ ReadAs code 0 :=
  fun read => nonzero (Nearest.unique read read_zero)

theorem digits_nonempty (code count : ℕ) (q : ℚ) (nonzero : code ≠ 0) (read : ReadAs code q)
    (digits : HasDigits count q) : 0 < count := by
  obtain ⟨n, exponent, small, rfl⟩ := digits
  by_contra empty
  have nothing : n = 0 := by
    rw [Nat.eq_zero_of_not_pos empty, pow_zero] at small
    omega
  rw [nothing, Nat.cast_zero, zero_mul] at read
  exact read_nonzero code nonzero read

theorem single_digit (code : ℕ) (d : Decimal) (nonzero : code ≠ 0) (read : ReadAs code d.rational)
    (single : d.coefficient < 10) : Shortest code d where
  read := read
  last := by
    intro last
    have nothing : d.coefficient = 0 := by omega
    rw [Decimal.rational, nothing, Nat.cast_zero, zero_mul] at read
    exact read_nonzero code nonzero read
  fewest count q rival digits :=
    have nonempty := digits_nonempty code count q nonzero rival digits
    ⟨d.coefficient, d.exponent,
      Nat.lt_of_lt_of_le single (Nat.le_self_pow (Nat.pos_iff_ne_zero.1 nonempty) 10), rfl⟩

section Found

variable (code n scale : ℕ) (read : ReadAs code (onGrid n scale))
  (coarser : ∀ m, ¬ ReadAs code (onGrid m (scale + 1)))

include read coarser

theorem last_counts : n % 10 ≠ 0 := by
  intro zero
  refine coarser (n / 10) ?_
  rwa [on_grid_coarser (n / 10) scale 1, pow_one, Nat.div_mul_cancel (Nat.dvd_of_mod_eq_zero zero)]

-- Otherwise the rival is a decimal of the coarser grid, or a power of ten between the two is.
theorem fewest_found (count : ℕ) (q : ℚ) (nonzero : code ≠ 0) (rival : ReadAs code q)
    (digits : HasDigits count q) : n < 10 ^ count := by
  have nonempty := digits_nonempty code count q nonzero rival digits
  obtain ⟨m, exponent, small, rfl⟩ := digits
  by_contra long
  by_cases coarse : (scale : ℤ) + 1 ≤ exponent + 1074
  · obtain ⟨places, same⟩ : ∃ places : ℕ, exponent = ((scale + 1 + places : ℕ) : ℤ) - 1074 :=
      ⟨(exponent + 1074 - (scale + 1)).toNat, by omega⟩
    have whole : (m * 10 ^ exponent : ℚ) = onGrid m (scale + 1 + places) := by rw [same, onGrid]
    rw [whole, on_grid_coarser] at rival
    exact coarser _ rival
  · obtain ⟨last, rfl⟩ : ∃ last, count = last + 1 := ⟨count - 1, by omega⟩
    refine coarser (10 ^ last) (read_between code _ _ _ rival read ?_ ?_)
    · rw [on_grid_coarser _ scale 1, pow_one, ← pow_succ]
      have lower : (m : ℚ) ≤ (10 ^ (last + 1) : ℕ) := Nat.cast_le.2 (le_of_lt small)
      have finer : (10 : ℚ) ^ exponent ≤ 10 ^ ((scale : ℤ) - 1074) :=
        zpow_le_zpow_right₀ (by norm_num) (by omega)
      exact mul_le_mul lower finer (le_of_lt (ten_power_pos _)) (Nat.cast_nonneg _)
    · rw [on_grid_coarser _ scale 1, pow_one, ← pow_succ]
      exact on_grid_le _ _ _ (Nat.le_of_not_lt long)

end Found

theorem shortest_found (tie : Tie) (code coefficient scale : Nat) (nonzero : code ≠ 0)
    (found : coarsest tie code (Numeral.count (exactDigits code) - 1) = (coefficient, scale)) :
    shortest tie code =
      if coefficient = 10 then ⟨1, (scale : Int) + 1 - exactPlaces⟩
      else ⟨coefficient, (scale : Int) - exactPlaces⟩ := by
  rw [shortest, if_neg nonzero]
  extract_lets length
  have grid : coarsest tie code (length - 1) = (coefficient, scale) := found
  rw [grid]

theorem shortest_shortest (tie : Tie) (code : ℕ) (nonzero : code ≠ 0) :
    Shortest code (shortest tie code) := by
  let first := Numeral.count (exactDigits code) - 1
  obtain ⟨inside, read, next, coarser⟩ := coarsest_found tie code first
  cases found : coarsest tie code first with
  | mk n scale =>
      rw [found] at inside read next coarser
      rw [shortest_found tie code n scale nonzero found]
      by_cases last : scale = first
      · -- On the first grid the exact value has one digit in front.
        have few : n ≤ 10 := by
          have digit : exactDigits code / 10 ^ first < 10 := Numeral.first_digit (exactDigits code)
          rw [← last] at digit
          exact Nat.le_trans next digit
        by_cases carry : n = 10
        · rw [if_pos carry]
          refine single_digit code _ nonzero ?_ (show 1 < 10 by decide)
          have joined := on_grid_coarser 1 scale 1
          rw [pow_one, Nat.one_mul, ← carry] at joined
          rwa [← joined] at read
        · rw [if_neg carry]
          exact single_digit code _ nonzero read (Nat.lt_of_le_of_ne few carry)
      · have missed := coarser (scale + 1) (Nat.lt_succ_self _) (Nat.lt_of_le_of_ne inside last)
        have counts := last_counts code n scale read missed
        have plain : n ≠ 10 := by
          rintro rfl
          exact counts rfl
        rw [if_neg plain]
        exact ⟨read, counts, fun count q rival digits =>
          ⟨n, _, fewest_found code n scale read missed count q nonzero rival digits, rfl⟩⟩

end Binary64
end ArithTemplate
