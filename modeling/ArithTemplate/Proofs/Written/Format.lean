import ArithTemplate.Proofs.Written.Specification

set_option autoImplicit false

open ArithTemplate.Text (bytes)

namespace ArithTemplate.Written

-- Literal text of a pattern. A pair of percent signs stands for one.
inductive Piece where
  | plain (c : Char) (other : c ≠ '%')
  | percent

def Piece.text : Piece → Text
  | .plain c _ => [c]
  | .percent => ['%', '%']

def Piece.char : Piece → Char
  | .plain c _ => c
  | .percent => '%'

def spelled (pieces : List Piece) : Text := pieces.flatMap Piece.text

def copied (pieces : List Piece) : Text := pieces.map Piece.char

structure Format where
  front : List Piece
  specification : Specification
  back : List Piece

def Format.text (f : Format) : Text := spelled f.front ++ (f.specification.text ++ spelled f.back)

def Format.pattern (f : Format) : Pattern :=
  ⟨copied f.front, f.specification.directive, copied f.back⟩

-- What literal text can stop at: the end, or a percent sign with no second one behind it.
def Lone (s : Text) : Prop := s = [] ∨ ∃ rest, s = '%' :: rest ∧ rest.head? ≠ some '%'

theorem lone_run (s : Text) (lone : Lone s) : Pattern.literalRun s = ([], 0, s) := by
  rcases lone with rfl | ⟨rest, rfl, single⟩
  · rfl
  · rw [Pattern.literalRun, if_pos rfl]
    rintro tail - rfl
    exact single rfl

theorem pieces_run (pieces : List Piece) (rest : Text) (lone : Lone rest) :
    Pattern.literalRun (spelled pieces ++ rest) = (copied pieces, bytes (spelled pieces), rest) := by
  induction pieces with
  | nil => exact lone_run rest lone
  | cons piece pieces hypothesis =>
      cases piece with
      | plain c other =>
          have shape : spelled (.plain c other :: pieces) ++ rest = c :: (spelled pieces ++ rest) := by
            simp [spelled, Piece.text]
          rw [shape, Pattern.literalRun, if_neg other, hypothesis]
          · simp [spelled, copied, Piece.text, Piece.char, bytes, Nat.add_comm]
          · exact fun _ percent _ => other percent
      | percent =>
          have shape : spelled (.percent :: pieces) ++ rest =
              '%' :: '%' :: (spelled pieces ++ rest) := by
            simp [spelled, Piece.text]
          have size : '%'.utf8Size = 1 := by decide
          rw [shape, Pattern.literalRun, hypothesis]
          simp [spelled, copied, Piece.text, Piece.char, bytes, size]
          omega

theorem run_pieces (s : Text) : Lone (Pattern.literalRun s).2.2 ∧ ∃ pieces,
    spelled pieces ++ (Pattern.literalRun s).2.2 = s ∧ copied pieces = (Pattern.literalRun s).1 := by
  induction s using Pattern.literalRun.induct with
  | case1 => exact ⟨.inl rfl, [], rfl, rfl⟩
  | case2 rest text size after run hypothesis =>
      rw [run] at hypothesis
      obtain ⟨lone, pieces, written, meant⟩ := hypothesis
      rw [Pattern.literalRun, run]
      refine ⟨lone, .percent :: pieces, ?_, ?_⟩
      · simpa [spelled, Piece.text] using written
      · simpa [copied, Piece.char] using meant
  | case3 rest single =>
      rw [Pattern.literalRun, if_pos rfl]
      · refine ⟨.inr ⟨rest, rfl, fun head => ?_⟩, [], rfl, rfl⟩
        obtain ⟨tail, rfl⟩ := List.head?_eq_some_iff.1 head
        exact single tail rfl rfl
      · exact single
  | case4 c rest single other text size after run hypothesis =>
      rw [run] at hypothesis
      obtain ⟨lone, pieces, written, meant⟩ := hypothesis
      rw [Pattern.literalRun, if_neg other, run]
      · refine ⟨lone, .plain c other :: pieces, ?_, ?_⟩
        · simpa [spelled, Piece.text] using written
        · simpa [copied, Piece.char] using meant
      · exact single

theorem pieces_unique (a b : List Piece) (same : copied a = copied b) : a = b := by
  induction a generalizing b with
  | nil =>
      cases b with
      | nil => rfl
      | cons => cases same
  | cons first rest hypothesis =>
      cases b with
      | nil => cases same
      | cons first' rest' =>
          obtain ⟨head, tail⟩ := List.cons.inj same
          rw [hypothesis rest' tail]
          cases first with
          | plain c other =>
              cases first' with
              | plain d other' =>
                  cases head
                  rfl
              | percent => exact absurd head other
          | percent =>
              cases first' with
              | plain d other' => exact absurd head.symm other'
              | percent => rfl

theorem specification_head (d : Specification) (rest : Text) :
    (partsText d.parts ++ rest).head? ≠ some '%' := by
  intro head
  obtain ⟨tail, shape⟩ := List.head?_eq_some_iff.1 head
  have scanned := specification_scanned d rest
  rw [shape] at scanned
  have letter : some '%' = some d.letter.char := congrArg (fun scan => scan.1.letter) scanned
  have known := letter_known d.letter
  rw [← Option.some.inj letter] at known
  cases known

theorem specification_lone (d : Specification) (rest : Text) : Lone (d.text ++ rest) :=
  .inr ⟨partsText d.parts ++ rest, rfl, specification_head d rest⟩

theorem format_reads (f : Format) : Pattern.read f.text = .ok f.pattern := by
  have front := pieces_run f.front _ (specification_lone f.specification (spelled f.back))
  have back := pieces_run f.back [] (.inl rfl)
  have scanned := specification_scanned f.specification (spelled f.back)
  rw [List.append_nil] at back
  rw [Format.text, Pattern.read, front]
  simp only [Specification.text, List.cons_append, scanned, specification_directive, back]
  rfl

theorem read_format (s : Text) (pattern : Pattern) (reads : Pattern.read s = .ok pattern) :
    ∃ f : Format, f.text = s ∧ f.pattern = pattern := by
  obtain ⟨lone, front, written, meant⟩ := run_pieces s
  unfold Pattern.read at reads
  generalize Pattern.literalRun s = run at lone written meant reads
  obtain ⟨leading, start, rest⟩ := run
  rcases lone with rfl | ⟨afterPercent, rfl, _⟩
  · cases reads
  · have scannedText := scan_text afterPercent
    have scanned := scan_scanned afterPercent
    dsimp only at reads
    generalize Pattern.Parts.scan afterPercent = scan at scannedText scanned reads
    obtain ⟨parts, afterParts⟩ := scan
    obtain ⟨_, back, writtenBack, meantBack⟩ := run_pieces afterParts
    dsimp only at reads
    generalize Pattern.literalRun afterParts = run at writtenBack meantBack reads
    obtain ⟨trailing, size, surplus⟩ := run
    cases made : parts.directive start with
    | error misfit =>
        rw [made] at reads
        cases reads
    | ok directive =>
        rw [made] at reads
        cases surplus with
        | cons extra more => cases reads
        | nil =>
            cases reads
            obtain ⟨d, rfl, rfl⟩ := directive_specification parts scanned start directive made
            refine ⟨⟨front, d, back⟩, ?_, ?_⟩
            · rw [List.append_nil] at writtenBack
              rw [← written, ← scannedText, ← writtenBack]
              rfl
            · rw [Format.pattern, meant, meantBack]

theorem format_unique (a b : Format) (same : a.text = b.text) : a = b := by
  have frontA := pieces_run a.front _ (specification_lone a.specification (spelled a.back))
  have frontB := pieces_run b.front _ (specification_lone b.specification (spelled b.back))
  have runs := frontA.symm.trans ((congrArg Pattern.literalRun same).trans frontB)
  obtain ⟨fronts, _, rests⟩ := Prod.mk.inj runs |>.imp id Prod.mk.inj
  have scanA := specification_scanned a.specification (spelled a.back)
  have scanB := specification_scanned b.specification (spelled b.back)
  have scans := scanA.symm.trans ((congrArg Pattern.Parts.scan (List.cons.inj rests).2).trans scanB)
  obtain ⟨parts, backs⟩ := Prod.mk.inj scans
  have backA := pieces_run a.back [] (.inl rfl)
  have backB := pieces_run b.back [] (.inl rfl)
  rw [backs, backB] at backA
  obtain ⟨front, d, back⟩ := a
  cases pieces_unique _ _ fronts
  cases parts_unique _ _ parts
  cases pieces_unique _ _ (Prod.mk.inj backA).1
  rfl

-- Literal text as it has to be written.
def doubled (text : Text) : Text := text.flatMap fun c => if c = '%' then ['%', '%'] else [c]

theorem doubled_pieces (text : Text) : ∃ pieces, spelled pieces = doubled text ∧ copied pieces = text := by
  induction text with
  | nil => exact ⟨[], rfl, rfl⟩
  | cons c rest hypothesis =>
      obtain ⟨pieces, written, meant⟩ := hypothesis
      by_cases percent : c = '%'
      · refine ⟨.percent :: pieces, ?_, ?_⟩
        · simpa [spelled, doubled, Piece.text, percent] using written
        · simp [copied, Piece.char, percent, ← meant]
      · refine ⟨.plain c percent :: pieces, ?_, ?_⟩
        · simpa [spelled, doubled, Piece.text, percent] using written
        · simp [copied, Piece.char, ← meant]

theorem specification_reads (d : Specification) :
    Pattern.read d.text = .ok ⟨[], d.directive, []⟩ := by
  have reads := format_reads ⟨[], d, []⟩
  simpa [Format.text, Format.pattern, spelled, copied] using reads

-- The patterns are the formats of the grammar, each in one way. The literal text is copied around
-- what the directive writes alone, and every text can be copied.
theorem read_iff_format :
    (∀ s pattern, Pattern.read s = .ok pattern ↔
      ∃ f : Format, (∀ other : Format, other.text = s ↔ other = f) ∧ pattern = f.pattern) ∧
    (∀ f : Format, f.pattern.directive.conversion = f.specification.letter.conversion ∧
      ∃ alone, Pattern.read f.specification.text = .ok alone ∧
        ∀ x, f.pattern.render x = copied f.front ++ (alone.render x ++ copied f.back)) ∧
    ∀ (front back : Text) (d : Specification), ∃ pattern alone,
      Pattern.read (doubled front ++ (d.text ++ doubled back)) = .ok pattern ∧
        Pattern.read d.text = .ok alone ∧
        ∀ x, pattern.render x = front ++ (alone.render x ++ back) := by
  have around (front back : Text) (d : Specification) (x : Binary64) :
      (Pattern.mk front d.directive back).render x =
        front ++ ((Pattern.mk [] d.directive []).render x ++ back) := by
    simp [Pattern.render]
  refine ⟨fun s pattern => ⟨fun reads => ?_, ?_⟩, fun f => ⟨rfl, _, specification_reads _, ?_⟩, ?_⟩
  · obtain ⟨f, rfl, rfl⟩ := read_format s pattern reads
    refine ⟨f, fun other => ⟨format_unique other f, ?_⟩, rfl⟩
    rintro rfl
    rfl
  · intro ⟨f, only, same⟩
    rw [same, ← (only f).2 rfl]
    exact format_reads f
  · exact around _ _ f.specification
  · intro front back d
    obtain ⟨a, writtenA, meantA⟩ := doubled_pieces front
    obtain ⟨b, writtenB, meantB⟩ := doubled_pieces back
    have reads := format_reads ⟨a, d, b⟩
    rw [Format.text, Format.pattern, writtenA, writtenB, meantA, meantB] at reads
    exact ⟨_, _, reads, specification_reads d, around front back d⟩

-- A second percent sign that stands alone is no letter and no literal text.
example : (Pattern.read ['%', '5', '%']).toOption = none ∧
    (Pattern.read ['%', 'f', '%']).toOption = none := by
  decide

end ArithTemplate.Written
