import ArithTemplate.Text.Blank

set_option autoImplicit false

namespace ArithTemplate

-- A run is what stands in front of the first character outside a class; scanning it is exact when
-- the text behind it starts outside the class.
theorem run_taken (p : Char → Bool) (run rest : Text) (inside : ∀ c ∈ run, p c = true)
    (boundary : ∀ c, rest.head? = some c → p c = false) : (run ++ rest).takeWhile p = run := by
  rw [List.takeWhile_append_of_pos inside]
  cases rest with
  | nil => simp
  | cons c tail => simp [boundary c rfl]

theorem run_dropped (p : Char → Bool) (run rest : Text) (inside : ∀ c ∈ run, p c = true)
    (boundary : ∀ c, rest.head? = some c → p c = false) : (run ++ rest).dropWhile p = rest := by
  have whole := List.takeWhile_append_dropWhile (p := p) (l := run ++ rest)
  rw [run_taken p run rest inside boundary] at whole
  exact List.append_cancel_left whole

theorem run_inside (p : Char → Bool) (s : Text) : ∀ c ∈ s.takeWhile p, p c = true :=
  fun c member => List.all_eq_true.1 List.all_takeWhile c member

theorem run_boundary (p : Char → Bool) (s : Text) :
    ∀ c, (s.dropWhile p).head? = some c → p c = false := by
  induction s with
  | nil => simp
  | cons d rest ih =>
      by_cases inside : p d = true
      · simpa [List.dropWhile_cons, inside] using ih
      · intro c head
        have same : d = c := by simpa [List.dropWhile_cons, inside] using head
        simpa [same] using inside

-- Two ways to cut a text behind a run are one.
theorem run_unique (p : Char → Bool) (run run' rest rest' : Text) (inside : ∀ c ∈ run, p c = true)
    (inside' : ∀ c ∈ run', p c = true) (boundary : ∀ c, rest.head? = some c → p c = false)
    (boundary' : ∀ c, rest'.head? = some c → p c = false) (same : run ++ rest = run' ++ rest') :
    run = run' ∧ rest = rest' := by
  constructor
  · rw [← run_taken p run rest inside boundary, same, run_taken p run' rest' inside' boundary']
  · rw [← run_dropped p run rest inside boundary, same, run_dropped p run' rest' inside' boundary']

end ArithTemplate
