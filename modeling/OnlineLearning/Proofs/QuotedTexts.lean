import OnlineLearning.Proofs.Readers
import OnlineLearning.Toml.Statement
import OnlineLearning.Toml.Writer

/-!
# Strings are read back

A string is written in one of four forms, and read back from each of them, whatever mark does not
follow.

* `escapedChar_codeEscape`: escapes are read back, character by character;
* `Spells`: what may stand between three marks, and the text that it spells;
* `string_stringText`: all four forms.
-/

namespace OnlineLearning.Toml

open Reader

variable {c : Char} {rest : List Char}

/-! ## Characters -/

/-- Whether an escape consists of the four digits of a code. -/
def isCodeEscape (c : Char) (cs : List Char) : Bool :=
  let ds := cs.drop 2
  cs.take 2 == ['\\', 'u'] && ds.length == 4 && ds.all isHexDigit && ofDigits 16 ds == c.toNat

theorem isCodeEscape_ascii : ∀ n : Fin 128, needsCode (Char.ofNat n) = true →
    Char.ofNat n ∈ ['\x08', '\x0c', '\r'] ∨
      isCodeEscape (Char.ofNat n) (codeEscape (Char.ofNat n)) = true := by
  decide +kernel

theorem toNat_lt_of_needsCode (h : needsCode c = true) : c.toNat < 128 := by
  unfold needsCode at h
  rcases Bool.or_eq_true_iff.mp h with h | h
  · have hlt : c < ' ' := by simp_all
    exact Nat.lt_trans (Nat.lt_of_lt_of_le hlt (Nat.le_refl 32)) (by decide)
  · rw [beq_iff_eq.mp h]
    decide

theorem unicodeEscape_append {ds : List Char} (hlength : ds.length = 4)
    (hds : ∀ d ∈ ds, isHexDigit d = true) (hcode : ofDigits 16 ds = c.toNat) (rest : List Char) :
    unicodeEscape 4 (ds ++ rest) = some (c, rest) := by
  have hread := mapM_one_append hds rest
  have hvalid : c.toNat.isValidChar := c.valid
  rw [hlength] at hread
  unfold unicodeEscape
  rw [Reader.bind_some hread, hcode, if_pos hvalid, Char.ofNat_toNat]
  rfl

/-- An escape is read back. -/
theorem escapedChar_codeEscape (h : c = '\t' ∨ c = '\n' ∨ c = '\\' ∨ needsCode c = true)
    (rest : List Char) : escapedChar (codeEscape c ++ rest) = some (c, rest) := by
  have hcode (hneeds : needsCode c = true) :
      c ∈ ['\x08', '\x0c', '\r'] ∨ isCodeEscape c (codeEscape c) = true := by
    have hascii := isCodeEscape_ascii ⟨c.toNat, toNat_lt_of_needsCode hneeds⟩
    rw [Char.ofNat_toNat] at hascii
    exact hascii hneeds
  rcases h with rfl | rfl | rfl | hneeds
  · rfl
  · rfl
  · rfl
  · rcases hcode hneeds with hshort | hlong
    · simp only [List.mem_cons, List.not_mem_nil, or_false] at hshort
      rcases hshort with rfl | rfl | rfl <;> rfl
    · simp only [isCodeEscape, Bool.and_eq_true, beq_iff_eq, List.all_eq_true] at hlong
      obtain ⟨⟨⟨hfront, hlength⟩, hds⟩, hvalue⟩ := hlong
      rw [← List.take_append_drop 2 (codeEscape c), hfront, List.append_assoc]
      exact unicodeEscape_append hlength hds hvalue rest

/-- After the backslash of an escape there is no blank and no line break. -/
theorem exists_codeEscape (c : Char) :
    ∃ d ds, codeEscape c = '\\' :: d :: ds ∧ isBlank d = false ∧ d ≠ '\n' ∧ d ≠ '\r' := by
  unfold codeEscape
  split_ifs
  · exact ⟨'b', [], rfl, by decide⟩
  · exact ⟨'t', [], rfl, by decide⟩
  · exact ⟨'n', [], rfl, by decide⟩
  · exact ⟨'f', [], rfl, by decide⟩
  · exact ⟨'r', [], rfl, by decide⟩
  · exact ⟨'\\', [], rfl, by decide⟩
  · exact ⟨'u', _, rfl, by decide⟩

theorem isLineChar_of_not_needsCode (h : needsCode c = false) (hbreak : c ≠ '\n') :
    isLineChar c = true := by
  unfold needsCode at h
  unfold isLineChar
  simp only [Bool.or_eq_false_iff, Bool.and_eq_false_iff, decide_eq_false_iff_not,
    bne_eq_false_iff_eq, beq_eq_false_iff_ne] at h
  simp only [Bool.or_eq_true, Bool.and_eq_true, decide_eq_true_eq, bne_iff_ne, beq_iff_eq]
  obtain ⟨(hspace | htab) | hbreak', hdelete⟩ := h
  · exact .inr ⟨not_lt.mp hspace, hdelete⟩
  · exact .inl htab
  · exact absurd hbreak' hbreak

/-- A character that is not escaped. -/
theorem isBasicChar_of_not_escaped (hquote : c ≠ '"')
    (h : ¬ (c = '\t' ∨ c = '\n' ∨ c = '\\' ∨ needsCode c = true)) : isBasicChar c = true := by
  simp only [not_or] at h
  obtain ⟨-, hbreak, hslash, hcode⟩ := h
  have hline := isLineChar_of_not_needsCode (Bool.not_eq_true _ ▸ hcode) hbreak
  simp [isBasicChar, hline, hquote, hslash]

/-- How the first character of a text is written. -/
theorem escaped_cons (lines : Bool) (allowed run : Nat) (c : Char) (cs : List Char) :
    escaped lines allowed run (c :: cs) =
      if c = '"' then
        if run < allowed then c :: escaped lines allowed (run + 1) cs
        else ['\\', '"'] ++ escaped lines allowed 0 cs
      else if c = '\n' ∧ lines = true then [c] ++ escaped lines allowed 0 cs
      else if c = '\t' ∨ c = '\n' ∨ c = '\\' ∨ needsCode c = true then
        codeEscape c ++ escaped lines allowed 0 cs
      else [c] ++ escaped lines allowed 0 cs := by
  rw [escaped]
  simp only [beq_iff_eq, Bool.and_eq_true, Bool.or_eq_true, or_assoc]
  split_ifs with hquote <;> first | rfl | exact hquote ▸ rfl

/-- What a text with escapes begins with. -/
theorem head_escaped {lines : Bool} {allowed run : Nat} {cs : List Char} {d : Char}
    (h : (escaped lines allowed run cs).head? = some d) :
    d = '\\' ∨ d = '"' ∧ run < allowed ∨ d = '\n' ∧ '\n' ∈ cs ∨ isBasicChar d = true := by
  cases cs with
  | nil => cases h
  | cons c cs =>
    rw [escaped_cons] at h
    split_ifs at h with hquote hrun hlines hescape
    · exact .inr (.inl ⟨(Option.some.inj h).symm.trans hquote, hrun⟩)
    · exact .inl (Option.some.inj h).symm
    · obtain rfl := Option.some.inj h
      exact .inr (.inr (.inl ⟨hlines.1, hlines.1 ▸ List.mem_cons_self⟩))
    · obtain ⟨e, es, hcode, -⟩ := exists_codeEscape c
      rw [hcode] at h
      exact .inl (Option.some.inj h).symm
    · obtain rfl := Option.some.inj h
      exact .inr (.inr (.inr (isBasicChar_of_not_escaped hquote hescape)))

/-! ## One line -/

theorem escape_cons {d : Char} {ds : List Char}
    (h : escapedChar ('\\' :: d :: ds) = some (c, rest)) :
    (one isBasicChar <|> escapedChar) ('\\' :: d :: ds) = some (c, rest) := by
  rw [orElse_none (one_none (ends_cons (by decide) _)), h]

theorem many_basic (cs rest : List Char) :
    Many (one isBasicChar <|> escapedChar) (escaped false 0 0 cs ++ '"' :: rest) cs
      ('"' :: rest) := by
  induction cs with
  | nil => exact .stop rfl
  | cons c cs ih =>
    rw [escaped_cons]
    split_ifs with hquote hrun hlines hescape
    · omega
    · subst hquote
      rw [List.append_assoc]
      exact ih.cons (by simp) rfl
    · exact hlines.2.elim
    · obtain ⟨d, ds, hcode, -⟩ := exists_codeEscape c
      have hread := escapedChar_codeEscape hescape (escaped false 0 0 cs ++ '"' :: rest)
      rw [List.append_assoc]
      refine ih.cons (by rw [hcode]; exact List.cons_ne_nil _ _) ?_
      rw [hcode] at hread ⊢
      exact escape_cons hread
    · rw [List.append_assoc]
      exact ih.cons (by simp) (orElse_some (one_some (isBasicChar_of_not_escaped hquote hescape) _))

theorem basicString_escaped (cs rest : List Char) :
    basicString ('"' :: escaped false 0 0 cs ++ '"' :: rest) = some (cs, rest) := by
  unfold basicString
  rw [List.cons_append, bind_some (char_some _ _), bind_some (many_basic cs rest).many_eq,
    bind_some (char_some _ _)]
  rfl

theorem literalString_append {cs : List Char} (hcs : ∀ c ∈ cs, isLiteralChar c = true)
    (rest : List Char) : literalString ('\'' :: cs ++ '\'' :: rest) = some (cs, rest) := by
  unfold literalString
  rw [List.cons_append, bind_some (char_some _ _),
    bind_some (run_append hcs (ends_cons (by decide) rest)), bind_some (char_some _ _)]
  rfl

/-! ## Several lines -/

/-- What may stand between three marks, after `run` of them, and the text that it spells: at most two
marks in a row, and pieces that are read on their own. -/
inductive Spells (mark : Char) (piece : Reader (List Char)) :
    (run : Nat) → (body content : List Char) → Prop
  | nil {run : Nat} (hrun : run ≤ 2) : Spells mark piece run [] []
  | mark {run : Nat} {body content : List Char} (hrun : run < 2)
      (hbody : Spells mark piece (run + 1) body content) :
      Spells mark piece run (mark :: body) (mark :: content)
  | piece {run : Nat} {c : Char} (cs out : List Char) {body content : List Char} (hrun : run ≤ 2)
      (hmark : c ≠ mark) (hpiece : ∀ rest, piece (c :: cs ++ rest) = some (out, rest))
      (hbody : Spells mark piece 0 body content) :
      Spells mark piece run (c :: cs ++ body) (out ++ content)

section

variable {mark : Char} {piece : Reader (List Char)} {run : Nat} {body content : List Char}

theorem takeWhile_marks (run : Nat) (hrest : rest.head? ≠ some mark) :
    (List.replicate run mark ++ rest).takeWhile (· == mark) = List.replicate run mark := by
  rw [List.takeWhile_append_of_pos (by simp)]
  cases rest with
  | nil => simp
  | cons c rest =>
    have hc : (c == mark) = false := beq_eq_false_iff_ne.mpr fun h => hrest (congrArg some h)
    simp [hc]

theorem dropWhile_marks (run : Nat) (hrest : rest.head? ≠ some mark) :
    (List.replicate run mark ++ rest).dropWhile (· == mark) = rest := by
  rw [List.dropWhile_append_of_pos (by simp)]
  cases rest with
  | nil => rfl
  | cons c rest =>
    have hc : (c == mark) = false := beq_eq_false_iff_ne.mpr fun h => hrest (congrArg some h)
    simp [hc]

/-- One or two marks in front of something else. -/
theorem innerMarks_append (hpos : 0 < run) (hrun : run ≤ 2) (hc : c ≠ mark) (rest : List Char) :
    innerMarks mark (List.replicate run mark ++ c :: rest) =
      some (List.replicate run mark, c :: rest) := by
  have hhead : (c :: rest).head? ≠ some mark := fun h => hc (Option.some.inj h)
  unfold innerMarks
  dsimp only
  rw [takeWhile_marks run hhead, dropWhile_marks run hhead, List.length_replicate]
  exact if_pos ⟨by omega, rfl⟩

/-- The marks at the end, and those in front of them. -/
theorem closing_append (hrun : run ≤ 2) (hrest : rest.head? ≠ some mark) :
    innerMarks mark (List.replicate run mark ++ ([mark, mark, mark] ++ rest)) = none ∧
      closingMarks mark (List.replicate run mark ++ ([mark, mark, mark] ++ rest)) =
        some (List.replicate run mark, rest) := by
  have hmarks : List.replicate run mark ++ ([mark, mark, mark] ++ rest) =
      List.replicate (run + 3) mark ++ rest := by
    rw [List.replicate_add, List.append_assoc]
    rfl
  rw [hmarks]
  constructor
  · unfold innerMarks
    dsimp only
    rw [takeWhile_marks _ hrest, List.length_replicate]
    exact if_neg fun h => by omega
  · have hcount : min (run + 3) 5 = run + 3 := by omega
    unfold closingMarks
    dsimp only
    rw [takeWhile_marks _ hrest, List.length_replicate, hcount, if_pos (by omega),
      Nat.add_sub_cancel, List.drop_left' List.length_replicate]

/-- In front of a mark only marks are read. -/
theorem orElse_innerMarks (hpiece : ∀ rest, piece (mark :: rest) = none) {text : List Char}
    (htext : text.head? = some mark) :
    (piece <|> innerMarks mark) text = innerMarks mark text := by
  obtain ⟨rest, rfl⟩ := List.head?_eq_some_iff.mp htext
  exact orElse_none (hpiece rest)

/-- The pieces of a text, and the marks at its end. -/
theorem Spells.read (hpiece : ∀ rest, piece (mark :: rest) = none)
    (h : Spells mark piece run body content) (hrest : rest.head? ≠ some mark) :
    ∃ pieces last s,
      Many (piece <|> innerMarks mark)
        (List.replicate run mark ++ (body ++ ([mark, mark, mark] ++ rest))) pieces s ∧
      closingMarks mark s = some (last, rest) ∧
      pieces.flatten ++ last = List.replicate run mark ++ content := by
  induction h with
  | @nil run hrun =>
    obtain ⟨hinner, hclosing⟩ := closing_append hrun hrest
    have hmarked : (List.replicate run mark ++ ([mark, mark, mark] ++ rest)).head? =
        some mark := by
      cases run <;> rfl
    exact ⟨[], _, _, .stop ((orElse_innerMarks hpiece hmarked).trans hinner), hclosing, by simp⟩
  | @mark run body content hrun hbody ih =>
    -- marks are not read one by one: this one joins those in front of it
    have hmore (tail : List Char) : List.replicate run mark ++ (mark :: tail) =
        List.replicate (run + 1) mark ++ tail := by
      rw [List.replicate_succ', List.append_assoc]
      rfl
    rw [List.cons_append, hmore, hmore]
    exact ih
  | @piece run c cs out body content hrun hmark hread hbody ih =>
    obtain ⟨pieces, last, s, hpieces, hclosing, hflat⟩ := ih
    rw [List.replicate_zero, List.nil_append] at hpieces hflat
    have hone : Many (piece <|> innerMarks mark)
        (c :: cs ++ body ++ ([mark, mark, mark] ++ rest)) (out :: pieces) s := by
      rw [List.append_assoc]
      exact hpieces.cons (List.cons_ne_nil _ _) (orElse_some (hread _))
    -- the marks in front of a piece are a piece of their own, if there are any
    by_cases hzero : run = 0
    · subst hzero
      refine ⟨_, last, s, hone, hclosing, ?_⟩
      rw [List.flatten_cons, List.append_assoc, hflat]
      rfl
    · refine ⟨List.replicate run mark :: out :: pieces, last, s, ?_, hclosing, ?_⟩
      · refine hone.cons (fun h => hzero (List.replicate_eq_nil_iff mark |>.mp h)) ?_
        refine (orElse_innerMarks hpiece ?_).trans
          (innerMarks_append (Nat.pos_of_ne_zero hzero) hrun hmark _)
        obtain ⟨n, rfl⟩ := Nat.exists_eq_succ_of_ne_zero hzero
        rfl
      · rw [List.flatten_cons, List.flatten_cons, List.append_assoc, List.append_assoc, hflat]

theorem newline_none (hbreak : c ≠ '\n') (hreturn : c ≠ '\r') (rest : List Char) :
    newline (c :: rest) = none := by
  have hnone {d : Char} (h : c ≠ d) : char d (c :: rest) = none :=
    char_none fun heq => h (Option.some.inj heq)
  exact (orElse_none (bind_none (hnone hbreak))).trans (bind_none (hnone hreturn))

/-- A piece that is one character. -/
theorem Spells.char (hrun : run ≤ 2) (hmark : c ≠ mark)
    (hpiece : ∀ rest, piece (c :: rest) = some ([c], rest))
    (hbody : Spells mark piece 0 body content) : Spells mark piece run (c :: body) (c :: content) :=
  .piece [] [c] hrun hmark hpiece hbody

/-- A text between three marks is read back. A line break that it begins with is kept, for then there
is another one in front of it. -/
theorem multiline_betweenThree (hpiece : ∀ rest, piece (mark :: rest) = none)
    (h : Spells mark piece 0 body content)
    (hbreak : '\n' ∉ content → ∀ rest, newline (body ++ [mark, mark, mark] ++ rest) = none)
    (hrest : rest.head? ≠ some mark) :
    multiline mark piece (betweenThree mark content body ++ rest) = some (content, rest) := by
  obtain ⟨pieces, last, s, hpieces, hclosing, hflat⟩ := h.read hpiece hrest
  rw [List.replicate_zero, List.nil_append] at hpieces hflat
  have hmarks : betweenThree mark content body ++ rest =
      (String.ofList [mark, mark, mark]).toList ++
        ((if content.contains '\n' then ['\n'] else []) ++
          (body ++ ([mark, mark, mark] ++ rest))) := by
    unfold betweenThree
    simp only [String.toList_ofList, List.append_assoc]
  have hfirst : ∃ first, maybe newline ((if content.contains '\n' then ['\n'] else []) ++
      (body ++ ([mark, mark, mark] ++ rest))) =
        some (first, body ++ ([mark, mark, mark] ++ rest)) := by
    split_ifs with hcontent
    · exact ⟨_, maybe_some rfl⟩
    · have hnone := hbreak (fun hmem => hcontent (List.contains_iff_mem.mpr hmem)) rest
      rw [List.append_assoc] at hnone
      exact ⟨_, maybe_none hnone⟩
  obtain ⟨first, hfirst⟩ := hfirst
  unfold multiline
  rw [hmarks, bind_some (word_some _ _), bind_some hfirst, bind_some hpieces.many_eq,
    bind_some hclosing, hflat]
  rfl

end

/-! ## Between three quotation marks -/

/-- A piece of a text between three quotation marks. -/
def basicPiece : Reader (List Char) :=
  oneChar (one isBasicChar) <|> oneChar newline <|> (do lineJoin; pure []) <|> oneChar escapedChar

theorem basicPiece_char (h : isBasicChar c = true) (rest : List Char) :
    basicPiece (c :: rest) = some ([c], rest) := orElse_some (map_some (one_some h rest))

theorem basicPiece_newline (rest : List Char) : basicPiece ('\n' :: rest) = some (['\n'], rest) :=
  rfl

/-- Escapes are not mistaken for a backslash that joins lines. -/
theorem basicPiece_escape {d : Char} {ds : List Char} (hblank : isBlank d = false)
    (hbreak : d ≠ '\n') (hreturn : d ≠ '\r')
    (h : escapedChar ('\\' :: d :: ds) = some (c, rest)) :
    basicPiece ('\\' :: d :: ds) = some ([c], rest) := by
  have hjoin : lineJoin ('\\' :: d :: ds) = none := by
    unfold lineJoin
    rw [bind_some (char_some _ _), bind_some (run_none (ends_cons hblank _)),
      bind_none (newline_none hbreak hreturn _)]
  have hone : oneChar (one isBasicChar) ('\\' :: d :: ds) = none :=
    map_none (one_none (ends_cons (by decide) _))
  have hnewline : oneChar newline ('\\' :: d :: ds) = none :=
    map_none (newline_none (by decide) (by decide) _)
  exact (orElse_none hone).trans <| (orElse_none hnewline).trans <|
    (orElse_none (bind_none hjoin)).trans (map_some h)

theorem basicPiece_mark (rest : List Char) : basicPiece ('"' :: rest) = none := rfl

theorem spells_escaped {run : Nat} (hrun : run ≤ 2) (cs : List Char) :
    Spells '"' basicPiece run (escaped true 2 run cs) cs := by
  induction cs generalizing run with
  | nil => exact .nil hrun
  | cons c cs ih =>
    rw [escaped_cons]
    split_ifs with hquote hless hlines hescape
    · subst hquote
      exact .mark hless (ih hless)
    · subst hquote
      have hread (rest : List Char) : basicPiece ('\\' :: '"' :: rest) = some (['"'], rest) :=
        basicPiece_escape (by decide) (by decide) (by decide) rfl
      exact .piece ['"'] ['"'] hrun (by decide) hread (ih (Nat.zero_le 2))
    · obtain ⟨rfl, -⟩ := hlines
      exact .char hrun hquote basicPiece_newline (ih (Nat.zero_le 2))
    · obtain ⟨d, ds, hcode, hblank, hbreak, hreturn⟩ := exists_codeEscape c
      rw [hcode]
      have hread (rest : List Char) : basicPiece ('\\' :: d :: (ds ++ rest)) = some ([c], rest) := by
        have hread := escapedChar_codeEscape hescape rest
        rw [hcode] at hread
        exact basicPiece_escape hblank hbreak hreturn hread
      exact .piece (d :: ds) [c] hrun (by decide) hread (ih (Nat.zero_le 2))
    · exact .char hrun hquote (basicPiece_char (isBasicChar_of_not_escaped hquote hescape))
        (ih (Nat.zero_le 2))

/-! ## Between three apostrophes -/

/-- A piece of a text between three apostrophes. -/
def literalPiece : Reader (List Char) := oneChar (one isLiteralChar) <|> oneChar newline

theorem le_longestRun (mark : Char) (run : Nat) (cs : List Char) :
    run ≤ longestRun mark run cs := by
  induction cs generalizing run with
  | nil => exact Nat.le_refl _
  | cons c cs ih =>
    rw [longestRun]
    split_ifs
    · exact Nat.le_of_succ_le (ih (run + 1))
    · exact Nat.le_max_left _ _

theorem isLiteralChar_of_not_needsCode (h : needsCode c = false) (hbreak : c ≠ '\n')
    (hmark : c ≠ '\'') : isLiteralChar c = true := by
  simp [isLiteralChar, isLineChar_of_not_needsCode h hbreak, hmark]

theorem spells_literal {run : Nat} {cs : List Char} (hcode : ∀ c ∈ cs, needsCode c = false)
    (h : longestRun '\'' run cs ≤ 2) : Spells '\'' literalPiece run cs cs := by
  induction cs generalizing run with
  | nil => exact .nil h
  | cons c cs ih =>
    have hrun := (le_longestRun '\'' run (c :: cs)).trans h
    have ih {run : Nat} (h : longestRun '\'' run cs ≤ 2) :=
      ih (fun c hc => hcode c (List.mem_cons_of_mem _ hc)) h
    rw [longestRun] at h
    split_ifs at h with hmark
    · obtain rfl := beq_iff_eq.mp hmark
      exact .mark ((le_longestRun _ _ cs).trans h) (ih h)
    · have hmark : c ≠ '\'' := fun heq => hmark (beq_iff_eq.mpr heq)
      have hrest := ih ((Nat.le_max_right _ _).trans h)
      by_cases hbreak : c = '\n'
      · subst hbreak
        exact .char hrun hmark (fun rest => rfl) hrest
      · have hone := isLiteralChar_of_not_needsCode (hcode c List.mem_cons_self) hbreak hmark
        exact .char hrun hmark (fun rest => orElse_some (map_some (one_some hone rest))) hrest

/-! ## All forms -/

theorem newline_body {mark : Char} {body : List Char} (hmark : mark ≠ '\n' ∧ mark ≠ '\r')
    (hbreak : body.head? ≠ some '\n') (hreturn : body.head? ≠ some '\r') (rest : List Char) :
    newline (body ++ [mark, mark, mark] ++ rest) = none := by
  cases body with
  | nil => exact newline_none hmark.1 hmark.2 _
  | cons c body =>
    exact newline_none (fun h => hbreak (congrArg some h)) (fun h => hreturn (congrArg some h)) _

theorem multilineBasic_escaped (cs : List Char) (hrest : rest.head? ≠ some '"') :
    multilineBasic (betweenThree '"' cs (escaped true 2 0 cs) ++ rest) = some (cs, rest) := by
  refine multiline_betweenThree basicPiece_mark (spells_escaped (Nat.zero_le 2) cs)
    (fun hbreak rest => newline_body (by decide) ?_ ?_ rest) hrest <;>
  · intro h
    rcases head_escaped h with h | ⟨h, -⟩ | ⟨-, h⟩ | h
    · exact absurd h (by decide)
    · exact absurd h (by decide)
    · exact hbreak h
    · exact absurd h (by decide)

theorem multilineLiteral_self {cs : List Char} (hcode : ∀ c ∈ cs, needsCode c = false)
    (h : longestRun '\'' 0 cs ≤ 2) (hrest : rest.head? ≠ some '\'') :
    multilineLiteral (betweenThree '\'' cs cs ++ rest) = some (cs, rest) := by
  refine multiline_betweenThree (fun _ => rfl) (spells_literal hcode h)
    (fun hbreak rest => newline_body (by decide) ?_ ?_ rest) hrest
  · exact fun h => hbreak (List.mem_of_mem_head? h)
  · exact fun h => absurd (hcode _ (List.mem_of_mem_head? h)) (by decide)

/-- A text between two marks does not begin with three of them. -/
theorem multiline_none {mark : Char} {piece : Reader (List Char)} {body : List Char}
    (hbody : body.head? ≠ some mark) (hrest : rest.head? ≠ some mark) :
    multiline mark piece (mark :: body ++ mark :: rest) = none := by
  refine bind_none (word_none ?_)
  rw [String.toList_ofList, List.cons_append, List.cons_prefix_cons]
  rintro ⟨-, tail, htail⟩
  cases body with
  | nil =>
    have hhead := congrArg List.head? (List.cons_eq_cons.mp htail).2
    exact hrest hhead.symm
  | cons c body => exact hbody (congrArg List.head? htail).symm

theorem multiline_needs {mark : Char} {piece : Reader (List Char)} :
    (multiline mark piece).Needs (· == mark) :=
  (needs_word (String.toList_ofList (l := [mark, mark, mark]))).bind _

theorem basicString_needs : basicString.Needs (· == '"') := (needs_char '"').bind _

theorem string_eq_of_basic {cs : List Char} {s : List Char}
    (h : multilineBasic s = some (cs, rest) ∨ multilineBasic s = none ∧
      basicString s = some (cs, rest)) :
    string s = some (.string (String.ofList cs), rest) := by
  refine map_some ?_
  rcases h with h | ⟨hnone, h⟩
  · exact orElse_some h
  · exact (orElse_none hnone).trans (orElse_some h)

theorem string_eq_of_literal {cs : List Char} {s : List Char} (hmark : s.head? = some '\'')
    (h : multilineLiteral s = some (cs, rest) ∨ multilineLiteral s = none ∧
      literalString s = some (cs, rest)) :
    string s = some (.string (String.ofList cs), rest) := by
  have hends : Ends (· == '"') s := fun c hc => by
    obtain rfl := Option.some.inj (hmark.symm.trans hc)
    rfl
  refine map_some ?_
  refine (orElse_none (multiline_needs s hends)).trans ?_
  refine (orElse_none (basicString_needs s hends)).trans ?_
  rcases h with h | ⟨hnone, h⟩
  · exact orElse_some h
  · exact (orElse_none hnone).trans h

theorem string_basic (cs : List Char) (hrest : rest.head? ≠ some '"') :
    string ('"' :: escaped false 0 0 cs ++ ['"'] ++ rest) =
      some (.string (String.ofList cs), rest) := by
  have hbody : (escaped false 0 0 cs).head? ≠ some '"' := fun h => by
    rcases head_escaped h with h | ⟨-, h⟩ | ⟨h, -⟩ | h
    · exact absurd h (by decide)
    · exact absurd h (by decide)
    · exact absurd h (by decide)
    · exact absurd h (by decide)
  rw [List.append_assoc]
  exact string_eq_of_basic (.inr ⟨multiline_none hbody hrest, basicString_escaped cs rest⟩)

theorem string_literal {cs : List Char} (hcode : ∀ c ∈ cs, needsCode c = false)
    (hbreak : '\n' ∉ cs) (hmark : '\'' ∉ cs) (hrest : rest.head? ≠ some '\'') :
    string ('\'' :: cs ++ ['\''] ++ rest) = some (.string (String.ofList cs), rest) := by
  have hliteral (c : Char) (hc : c ∈ cs) : isLiteralChar c = true :=
    isLiteralChar_of_not_needsCode (hcode c hc) (fun h => hbreak (h ▸ hc)) fun h => hmark (h ▸ hc)
  have hbody : cs.head? ≠ some '\'' := fun h => hmark (List.mem_of_mem_head? h)
  rw [List.append_assoc]
  exact string_eq_of_literal rfl
    (.inr ⟨multiline_none hbody hrest, literalString_append hliteral rest⟩)

/-- A string is read back in front of everything that does not begin with a mark. -/
theorem string_stringText (s : String) (hquote : rest.head? ≠ some '"')
    (hmark : rest.head? ≠ some '\'') :
    string ((stringText s).toList ++ rest) = some (.string s, rest) := by
  have hcode (h : s.toList.any needsCode = false) : ∀ c ∈ s.toList, needsCode c = false :=
    fun c hc => Bool.eq_false_iff.mpr fun hneeds => by
      rw [List.any_eq_true.mpr ⟨c, hc, hneeds⟩] at h
      cases h
  unfold stringText
  dsimp only
  rw [String.toList_ofList]
  conv => rhs; rw [← String.ofList_toList (s := s)]
  split_ifs with hplain hliteral hlines hthree hbreak
  · exact string_basic _ hquote
  · simp only [Bool.and_eq_true, Bool.not_eq_true', List.contains_eq_mem,
      decide_eq_false_iff_not] at hliteral
    exact string_literal (hcode hliteral.1.1) hliteral.1.2 hliteral.2 hmark
  · exact string_eq_of_basic (.inl (multilineBasic_escaped _ hquote))
  · simp only [Bool.and_eq_true, Bool.not_eq_true', decide_eq_true_eq] at hthree
    exact string_eq_of_literal rfl
      (.inl (multilineLiteral_self (hcode hthree.1) hthree.2 hmark))
  · exact string_eq_of_basic (.inl (multilineBasic_escaped _ hquote))
  · exact string_basic _ hquote

end OnlineLearning.Toml
