import Mathlib
import OnlineLearning.Text.Reader

/-!
# What readers take

* `Reader.bind_some`, `Reader.orElse_none` and their like: how a reader goes on after its first part
  has read something or has failed;
* `Reader.Ends` and `Reader.Needs`: where a class of characters ends, and the classes that a reader
  has to begin with;
* `Reader.Many`: what a repeated reader takes, value by value.
-/

namespace OnlineLearning.Reader

variable {α β : Type} {r r' : Reader α} {s s' : List Char} {a : α}

/-! ## Parts and alternatives -/

theorem bind_some {f : α → Reader β} (h : r s = some (a, s')) : (r >>= f) s = f a s' := by
  change (r s).bind (fun x => f x.1 x.2) = _
  rw [h]
  rfl

theorem bind_none {f : α → Reader β} (h : r s = none) : (r >>= f) s = none := by
  change (r s).bind (fun x => f x.1 x.2) = _
  rw [h]
  rfl

theorem map_some {f : α → β} (h : r s = some (a, s')) : (f <$> r) s = some (f a, s') := by
  change (r s).bind (fun x => some (f x.1, x.2)) = _
  rw [h]
  rfl

theorem map_none {f : α → β} (h : r s = none) : (f <$> r) s = none := by
  change (r s).bind (fun x => some (f x.1, x.2)) = _
  rw [h]
  rfl

theorem orElse_eq (r r' : Reader α) (s : List Char) : (r <|> r') s = (r s <|> r' s) := rfl

theorem orElse_some (h : r s = some (a, s')) : (r <|> r') s = some (a, s') := by
  rw [orElse_eq, h]
  rfl

theorem orElse_none (h : r s = none) : (r <|> r') s = r' s := by
  rw [orElse_eq, h]
  rfl

theorem maybe_some (h : r s = some (a, s')) : maybe r s = some (some a, s') :=
  orElse_some (map_some h)

theorem maybe_none (h : r s = none) : maybe r s = some (none, s) := orElse_none (map_none h)

/-! ## Characters -/

variable {p : Char → Bool} {c : Char} {rest : List Char}

/-- The next character, if there is one, is not of a class. -/
def Ends (p : Char → Bool) (s : List Char) : Prop := ∀ c, s.head? = some c → p c = false

theorem ends_nil (p : Char → Bool) : Ends p [] := nofun

theorem ends_cons (h : p c = false) (rest : List Char) : Ends p (c :: rest) := fun _ hc =>
  Option.some.inj hc ▸ h

theorem Ends.head_ne (h : Ends p s) (hc : p c = true) : s.head? ≠ some c := fun heq =>
  Bool.false_ne_true ((h c heq).symm.trans hc)

theorem Ends.mono {p' : Char → Bool} (h : Ends p s) (hp : ∀ c, p' c = true → p c = true) :
    Ends p' s := fun c hc => Bool.eq_false_iff.mpr fun hc' => h.head_ne (hp c hc') hc

theorem one_some (h : p c = true) (rest : List Char) : one p (c :: rest) = some (c, rest) := if_pos h

theorem one_none (h : Ends p s) : one p s = none := by
  cases s with
  | nil => rfl
  | cons c rest => exact if_neg (by rw [h c rfl]; exact Bool.false_ne_true)

theorem char_some (c : Char) (rest : List Char) : char c (c :: rest) = some ((), rest) :=
  bind_some (one_some (beq_self_eq_true c) rest)

theorem char_none (h : s.head? ≠ some c) : char c s = none :=
  bind_none (one_none fun _ hc' => beq_eq_false_iff_ne.mpr fun heq => h (heq ▸ hc'))

theorem forM_char_some (text rest : List Char) :
    (text.forM char : Reader Unit) (text ++ rest) = some ((), rest) := by
  induction text with
  | nil => rfl
  | cons c text ih =>
    change (do char c; text.forM char : Reader Unit) (c :: (text ++ rest)) = _
    rw [bind_some (char_some c _), ih]

theorem forM_char_none {text : List Char} (h : ¬ text <+: s) :
    (text.forM char : Reader Unit) s = none := by
  induction text generalizing s with
  | nil => exact absurd List.nil_prefix h
  | cons c text ih =>
    change (do char c; text.forM char : Reader Unit) s = _
    by_cases hhead : s.head? = some c
    · obtain ⟨rest, rfl⟩ := List.head?_eq_some_iff.mp hhead
      rw [bind_some (char_some c rest)]
      exact ih fun hprefix => h (List.prefix_cons_iff.mpr (.inr ⟨_, rfl, hprefix⟩))
    · exact bind_none (char_none hhead)

theorem word_some (text : String) (rest : List Char) :
    word text (text.toList ++ rest) = some ((), rest) := forM_char_some _ _

theorem word_none {text : String} (h : ¬ text.toList <+: s) : word text s = none := forM_char_none h

/-- A run of characters ends where the next one is of another class. -/
theorem run_append {cs : List Char} (hcs : ∀ c ∈ cs, p c = true) (hrest : Ends p rest) :
    run p (cs ++ rest) = some (cs, rest) := by
  have hsplit : (cs ++ rest).takeWhile p = cs ∧ (cs ++ rest).dropWhile p = rest := by
    induction cs with
    | nil =>
      cases rest with
      | nil => exact ⟨rfl, rfl⟩
      | cons c rest =>
        have hc := hrest c rfl
        simp [hc]
    | cons c cs ih =>
      have hc := hcs c List.mem_cons_self
      have ih := ih fun c hc => hcs c (List.mem_cons_of_mem _ hc)
      simp [hc, ih]
  change some ((cs ++ rest).takeWhile p, (cs ++ rest).dropWhile p) = _
  rw [hsplit.1, hsplit.2]

theorem run_none (h : Ends p s) : run p s = some ([], s) := by
  have hnil : ∀ c ∈ ([] : List Char), p c = true := List.forall_mem_nil _
  exact run_append hnil h

theorem run1_append {cs : List Char} (hne : cs ≠ []) (hcs : ∀ c ∈ cs, p c = true)
    (hrest : Ends p rest) : run1 p (cs ++ rest) = some (cs, rest) := by
  obtain ⟨c, cs, rfl⟩ := List.exists_cons_of_ne_nil hne
  have hrun := run_append (fun c hc => hcs c (List.mem_cons_of_mem _ hc)) hrest
  unfold run1
  rw [List.cons_append, bind_some (one_some (hcs c List.mem_cons_self) _), bind_some hrun]
  rfl

/-! ## The first character -/

/-- A reader fails unless the next character is of a class. -/
def Needs (r : Reader α) (p : Char → Bool) : Prop := ∀ s, Ends p s → r s = none

theorem Needs.bind (h : r.Needs p) (f : α → Reader β) : (r >>= f).Needs p :=
  fun s hs => bind_none (h s hs)

theorem Needs.map (h : r.Needs p) (f : α → β) : (f <$> r).Needs p := fun s hs => map_none (h s hs)

theorem Needs.orElse {p' : Char → Bool} (h : r.Needs p) (h' : r'.Needs p') :
    (r <|> r').Needs fun c => p c || p' c := fun s hs => by
  rw [orElse_none (h s fun c hc => (Bool.or_eq_false_iff.mp (hs c hc)).1)]
  exact h' s fun c hc => (Bool.or_eq_false_iff.mp (hs c hc)).2

theorem needs_one (p : Char → Bool) : (one p).Needs p := fun _ hs => one_none hs

theorem needs_char (c : Char) : (char c).Needs (· == c) := (needs_one _).bind _

theorem needs_word {text : String} {c : Char} {cs : List Char} (h : text.toList = c :: cs) :
    (word text).Needs (· == c) := by
  unfold word
  rw [h]
  exact (needs_char c).bind _

/-! ## Repetitions -/

/-- The values that a reader takes one after another, until it fails. -/
inductive Many (r : Reader α) : List Char → List α → List Char → Prop
  | stop {s : List Char} (h : r s = none) : Many r s [] s
  | more {s s' rest : List Char} {a : α} {as : List α} (h : r s = some (a, s'))
      (hshorter : s'.length < s.length) (hmore : Many r s' as rest) : Many r s (a :: as) rest

theorem Many.upTo_eq {as : List α} (h : Many r s as rest) {limit : Nat}
    (hlimit : s.length ≤ limit) : upTo r limit s = some (as, rest) := by
  induction h generalizing limit with
  | stop h =>
    cases limit with
    | zero => rfl
    | succ limit => exact orElse_none (bind_none h)
  | more h hshorter hmore ih =>
    cases limit with
    | zero => omega
    | succ limit =>
      refine orElse_some ?_
      rw [bind_some h, bind_some (ih (by omega))]
      rfl

theorem Many.many_eq {as : List α} (h : Many r s as rest) : many r s = some (as, rest) :=
  h.upTo_eq (Nat.le_refl _)

/-- A value that is written with a text, in front of others. -/
theorem Many.cons {text : List Char} {as : List α} (htext : text ≠ [])
    (h : r (text ++ s) = some (a, s)) (hmore : Many r s as rest) :
    Many r (text ++ s) (a :: as) rest := by
  have hpos := List.length_pos_of_ne_nil htext
  exact .more h (by rw [List.length_append]; omega) hmore

theorem many_none (h : r s = none) : many r s = some ([], s) := (Many.stop h).many_eq

/-- A number of characters. -/
theorem mapM_one_append {cs : List Char} (hcs : ∀ c ∈ cs, p c = true) (rest : List Char) :
    ((List.replicate cs.length ()).mapM fun _ => one p : Reader (List Char)) (cs ++ rest) =
      some (cs, rest) := by
  induction cs with
  | nil => rfl
  | cons c cs ih =>
    have ih := ih fun c hc => hcs c (List.mem_cons_of_mem _ hc)
    rw [List.length_cons, List.replicate_succ, List.mapM_cons, List.cons_append,
      bind_some (one_some (hcs c List.mem_cons_self) _), bind_some ih]
    rfl

/-- What such a reader has taken is in the text. -/
theorem of_mapM_one {count : Nat} {cs : List Char}
    (h : ((List.replicate count ()).mapM fun _ => one p : Reader (List Char)) s = some (cs, rest)) :
    s = cs ++ rest ∧ ∀ c ∈ cs, p c = true := by
  induction count generalizing s cs with
  | zero =>
    cases h
    exact ⟨rfl, nofun⟩
  | succ count ih =>
    rw [List.replicate_succ, List.mapM_cons] at h
    cases s with
    | nil => cases h
    | cons c s =>
      by_cases hc : p c = true
      · rw [bind_some (one_some hc s)] at h
        cases hmore : ((List.replicate count ()).mapM fun _ => one p : Reader (List Char)) s with
        | none =>
          rw [bind_none hmore] at h
          cases h
        | some read =>
          obtain ⟨cs', s'⟩ := read
          rw [bind_some hmore] at h
          cases h
          obtain ⟨rfl, hcs⟩ := ih hmore
          exact ⟨rfl, List.forall_mem_cons.mpr ⟨hc, hcs⟩⟩
      · rw [bind_none (one_none (ends_cons (Bool.not_eq_true _ ▸ hc) s))] at h
        cases h

end OnlineLearning.Reader
