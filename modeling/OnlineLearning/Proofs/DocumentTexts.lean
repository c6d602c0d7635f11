import OnlineLearning.Proofs.NumberTexts
import OnlineLearning.Proofs.QuotedTexts
import OnlineLearning.Toml.Document

/-!
# Documents are read back

The text of a document is read as the statements that it was written of: headers, and pairs of bare
keys and values.

* `Toml.Value.IsReadBack`: a value is read back in front of everything that may follow it;
* `Toml.key_text`: dotted keys of bare names are read back;
* `Toml.whole?_render` and `Toml.parse?_render`: whole documents.
-/

namespace OnlineLearning.Toml

open Reader

variable {rest : List Char}

/-! ## Values -/

/-- A value is written as a text that begins with no blank, and read from it. -/
structure Value.IsReadBack (v : Value) : Prop where
  ends (rest : List Char) : Ends isBlank ((valueText v).toList ++ rest)
  read {rest : List Char} (hrest : Closed rest) :
    value (depthLimit - 1) ((valueText v).toList ++ rest) = some (v, rest)

theorem value_string {depth : Nat} {v : Value} {s : List Char} (h : string s = some (v, rest)) :
    value depth s = some (v, rest) := by
  rw [value.eq_def]
  exact orElse_some h

theorem string_none {s : List Char} (h : Ends (fun c => c == '"' || c == '\'') s) :
    string s = none := by
  have hquote : Ends (· == '"') s := fun c hc => (Bool.or_eq_false_iff.mp (h c hc)).1
  have hmark : Ends (· == '\'') s := fun c hc => (Bool.or_eq_false_iff.mp (h c hc)).2
  exact map_none <| (orElse_none (multiline_needs s hquote)).trans <|
    (orElse_none (basicString_needs s hquote)).trans <|
    (orElse_none (multiline_needs s hmark)).trans ((needs_char '\'').bind _ s hmark)

theorem boolean_needs : boolean.Needs fun c => c == 't' || c == 'f' :=
  ((needs_word rfl).bind _).orElse ((needs_word rfl).bind _)

/-- What begins neither a string nor a truth value is tried as a number. -/
theorem value_number (depth : Nat) {s : List Char}
    (hends : Ends (fun c => c ∈ ['"', '\'', 't', 'f']) s) (hdate : dateTime s = none) :
    value depth s = (finiteFloat <|> integer <|> specialFloat <|>
      match depth with
      | 0 => failure
      | depth + 1 => array (value depth) <|> inlineTable (value depth)) s := by
  have hstring : string s = none := string_none (hends.mono fun c => by simp +contextual [or_imp])
  have hboolean : boolean s = none := boolean_needs s (hends.mono fun c => by simp +contextual)
  rw [value.eq_def]
  exact (orElse_none hstring).trans <| (orElse_none hboolean).trans (orElse_none hdate)

theorem isReadBack_boolean (b : Bool) : (Value.boolean b).IsReadBack where
  ends rest := by cases b <;> exact ends_cons rfl _
  read _ := by
    rw [value.eq_def]
    cases b <;> rfl

theorem isReadBack_natural {n : Nat} (hn : isInteger n = true) : (Value.integer n).IsReadBack := by
  have htext : (valueText (.integer n)).toList = Nat.toDigits 10 n := by
    rw [valueText]
    change n.repr.toList = _
    rw [Nat.repr_eq_ofList_toDigits, String.toList_ofList]
  have hwhole := isWhole_toDigits n
  refine ⟨fun rest => ?_, fun {rest} hrest => ?_⟩
  · rw [htext]
    exact hwhole.ends (by decide) rest
  · have hdate : dateTime (Nat.toDigits 10 n ++ rest) = none :=
      dateTime_digits hwhole.isDigit (hrest.ends (by decide))
    rw [htext, value_number _ (hwhole.ends (by decide) rest) hdate,
      orElse_none (finiteFloat_toDigits n hrest)]
    exact orElse_some (integer_toDigits hn hrest)

theorem isReadBack_float (x : Float) : (Value.float x).IsReadBack := by
  have h : FloatText x (valueText (.float x)).toList := by
    rw [valueText]
    exact floatText_write64 x
  refine ⟨h.ends (by decide) (by decide), fun {rest} hrest => ?_⟩
  rw [value_number _ (h.ends (by decide) (by decide) rest) (h.dateTime_none rest)]
  exact h.read hrest _

/-! ## Arrays of strings -/

theorem exists_stringText (s : String) :
    ∃ c cs, (stringText s).toList = c :: cs ∧ (c = '"' ∨ c = '\'') := by
  unfold stringText
  dsimp only
  rw [String.toList_ofList]
  split_ifs
  · exact ⟨_, _, rfl, .inl rfl⟩
  · exact ⟨_, _, rfl, .inr rfl⟩
  · exact ⟨_, _, rfl, .inl rfl⟩
  · exact ⟨_, _, rfl, .inr rfl⟩
  · exact ⟨_, _, rfl, .inl rfl⟩
  · exact ⟨_, _, rfl, .inl rfl⟩

theorem ends_stringText {p : Char → Bool} (hp : p '"' = false ∧ p '\'' = false) (s : String)
    (rest : List Char) : Ends p ((stringText s).toList ++ rest) := by
  obtain ⟨c, cs, htext, hc⟩ := exists_stringText s
  rw [htext]
  rcases hc with rfl | rfl
  · exact ends_cons hp.1 _
  · exact ends_cons hp.2 _

theorem isReadBack_string (s : String) : (Value.string s).IsReadBack := by
  have htext : valueText (.string s) = stringText s := by rw [valueText]
  refine ⟨fun rest => ?_, fun {rest} hrest => ?_⟩
  · rw [htext]
    exact ends_stringText ⟨rfl, rfl⟩ s rest
  · rw [htext]
    exact value_string
      (string_stringText s (hrest.head_ne (by decide)) (hrest.head_ne (by decide)))

theorem newline_needs : newline.Needs fun c => c == '\n' || c == '\r' :=
  ((needs_char '\n').bind _).orElse ((needs_char '\r').bind _)

theorem comment_needs : comment.Needs (· == '#') := (needs_char '#').bind _

theorem blanks_append {bs : List Char} (hbs : ∀ c ∈ bs, isBlank c = true)
    (hrest : Ends isBlank rest) : blanks (bs ++ rest) = some ((), rest) :=
  bind_some (run_append hbs hrest)

theorem blanks_none (h : Ends isBlank rest) : blanks rest = some ((), rest) := bind_some (run_none h)

theorem gap_append {bs : List Char} (hbs : ∀ c ∈ bs, isBlank c = true)
    (hrest : Ends (fun c => isBlank c || c ∈ ['#', '\n', '\r']) rest) :
    gap (bs ++ rest) = some ((), rest) := by
  have hcomment := comment_needs rest (hrest.mono fun c => by simp +contextual)
  have hnewline := newline_needs rest (hrest.mono fun c => by simp +contextual)
  have hblank : Ends isBlank rest := hrest.mono fun c hc => by rw [hc]; rfl
  unfold gap
  rw [bind_some (blanks_append hbs hblank), bind_some (many_none ?_)]
  · rfl
  · rw [bind_some (maybe_none hcomment)]
    exact bind_none hnewline

theorem gap_none (h : Ends (fun c => isBlank c || c ∈ ['#', '\n', '\r']) rest) :
    gap rest = some ((), rest) := gap_append (List.forall_mem_nil _) h

/-- An item of an array, and the blanks in front of it. -/
theorem item_append {bs : List Char} (hbs : ∀ c ∈ bs, isBlank c = true) (depth : Nat) (s : String)
    (hrest : rest.head? = some ',' ∨ rest.head? = some ']') :
    (do gap; let v ← value depth; gap; pure v : Reader Value)
      (bs ++ ((stringText s).toList ++ rest)) = some (.string s, rest) := by
  have hclosed : Closed rest := by
    rcases hrest with h | h
    · exact ⟨',', by simp, List.head?_eq_some_iff.mp h⟩
    · exact ⟨']', by simp, List.head?_eq_some_iff.mp h⟩
  have hstring := string_stringText s (hclosed.head_ne (by decide)) (hclosed.head_ne (by decide))
  have hfront : gap (bs ++ ((stringText s).toList ++ rest)) =
      some ((), (stringText s).toList ++ rest) := gap_append hbs (ends_stringText ⟨rfl, rfl⟩ s rest)
  have hback : gap rest = some ((), rest) := by
    refine gap_none ?_
    rcases hrest with h | h <;> obtain ⟨tail, rfl⟩ := List.head?_eq_some_iff.mp h <;>
      exact ends_cons rfl tail
  rw [bind_some hfront, bind_some (value_string hstring), bind_some hback]
  rfl

/-- The texts behind the first item of an array. -/
def itemsTail (xs : List String) (rest : List Char) : List Char :=
  xs.flatMap (fun x => [',', ' '] ++ (stringText x).toList) ++ ']' :: rest

theorem head_itemsTail (xs : List String) (rest : List Char) :
    (itemsTail xs rest).head? = some ',' ∨ (itemsTail xs rest).head? = some ']' := by
  cases xs with
  | nil => exact .inr rfl
  | cons => exact .inl rfl

/-- The items behind the first one. -/
theorem many_items (depth : Nat) (xs : List String) (rest : List Char) :
    Many (do let _ ← char ','; gap; let v ← value depth; gap; pure v : Reader Value)
      (itemsTail xs rest) (xs.map .string) (']' :: rest) := by
  induction xs with
  | nil => exact .stop rfl
  | cons x xs ih =>
    have htext : itemsTail (x :: xs) rest =
        [',', ' '] ++ (stringText x).toList ++ itemsTail xs rest := by
      unfold itemsTail
      rw [List.flatMap_cons, List.append_assoc]
    rw [htext]
    refine ih.cons (List.cons_ne_nil _ _) ?_
    change (do let _ ← char ','; gap; let v ← value depth; gap; pure v : Reader Value)
      (',' :: ([' '] ++ ((stringText x).toList ++ _))) = _
    rw [bind_some (char_some _ _)]
    exact item_append (List.forall_mem_singleton.mpr rfl) depth x (head_itemsTail xs rest)

theorem intercalate_cons {α : Type} (separator x : List α) (xs : List (List α)) :
    separator.intercalate (x :: xs) = x ++ xs.flatMap (separator ++ ·) := by
  induction xs generalizing x with
  | nil => simp
  | cons y ys ih =>
    rw [List.intercalate_cons_cons, ih, List.flatMap_cons]
    simp only [List.append_assoc]

/-- The text of an array of strings. -/
theorem toList_texts (xs : List String) : (valueText (.array false (xs.map .string))).toList =
    '[' :: ([',', ' '].intercalate (xs.map fun x => (stringText x).toList) ++ [']']) := by
  have hitems : itemTexts (xs.map .string) = xs.map stringText := by
    induction xs with
    | nil => rw [List.map_nil, itemTexts, List.map_nil]
    | cons x xs ih => rw [List.map_cons, itemTexts, ih, valueText, List.map_cons]
  rw [valueText, hitems, String.toList_append, String.toList_append, String.toList_intercalate,
    List.map_map]
  rfl

/-- The items of an array, none included. -/
theorem separated_items (depth : Nat) (xs : List String) (rest : List Char) :
    separated (do gap; let v ← value depth; gap; pure v : Reader Value) (char ',')
      ([',', ' '].intercalate (xs.map fun x => (stringText x).toList) ++ ']' :: rest) =
        some (xs.map .string, ']' :: rest) := by
  cases xs with
  | nil =>
    have hgap : gap (']' :: rest) = some ((), ']' :: rest) := rfl
    have hnone : value depth (']' :: rest) = none := by cases depth <;> rfl
    refine orElse_none (bind_none ?_)
    exact (bind_some hgap).trans (bind_none hnone)
  | cons x xs =>
    have htext : [',', ' '].intercalate ((x :: xs).map fun x => (stringText x).toList) ++
        ']' :: rest = (stringText x).toList ++ itemsTail xs rest := by
      unfold itemsTail
      rw [List.map_cons, intercalate_cons, List.flatMap_map, List.append_assoc]
    have hfirst := item_append (List.forall_mem_nil _) depth x (head_itemsTail xs rest)
    rw [List.nil_append] at hfirst
    rw [htext]
    refine orElse_some ?_
    rw [bind_some hfirst, bind_some (many_items depth xs rest).many_eq]
    rfl

theorem array_texts (depth : Nat) (xs : List String) (rest : List Char) :
    array (value depth) ((valueText (.array false (xs.map .string))).toList ++ rest) =
      some (.array false (xs.map .string), rest) := by
  have hitems := separated_items depth xs rest
  rw [toList_texts]
  unfold array
  rw [List.cons_append, bind_some (char_some _ _), List.append_assoc, List.singleton_append,
    bind_some hitems]
  cases xs <;> rfl

theorem value_array {depth : Nat} {v : Value} {s : List Char}
    (h : array (value depth) ('[' :: s) = some (v, rest)) :
    value (depth + 1) ('[' :: s) = some (v, rest) := by
  have hends : Ends (fun c => c ∈ ['"', '\'', 't', 'f']) ('[' :: s) := ends_cons rfl s
  have hnumber (nested : Reader Value) :
      (finiteFloat <|> integer <|> specialFloat <|> nested) ('[' :: s) = nested ('[' :: s) := rfl
  rw [value_number _ hends (dateTime_needs _ (ends_cons rfl s)), hnumber]
  exact orElse_some h

theorem isReadBack_texts (xs : List String) : (Value.array false (xs.map .string)).IsReadBack := by
  refine ⟨fun rest => ?_, fun {rest} _ => ?_⟩
  · rw [toList_texts]
    exact ends_cons rfl _
  · have harray := array_texts 78 xs rest
    rw [toList_texts] at harray ⊢
    exact value_array harray

/-! ## Keys -/

/-- Names that are written without marks. -/
def isBare (name : String) : Bool := !name.isEmpty && name.toList.all isBareChar

variable {name : String}

theorem isBareChar_of_isBare (h : isBare name = true) : ∀ c ∈ name.toList, isBareChar c = true :=
  List.all_eq_true.mp (Bool.and_eq_true_iff.mp h).2

theorem toList_ne_nil (h : isBare name = true) : name.toList ≠ [] := fun hnil => by
  have hempty : name = "" := String.toList_eq_nil_iff.mp hnil
  subst hempty
  exact absurd h (by decide)

/-- A class that has no characters of bare names ends where such a name begins. -/
theorem ends_bare {p : Char → Bool} (h : isBare name = true)
    (hp : ∀ c, p c = true → isBareChar c = false) (rest : List Char) :
    Ends p (name.toList ++ rest) := by
  obtain ⟨c, cs, hcs⟩ := List.exists_cons_of_ne_nil (toList_ne_nil h)
  have hc := isBareChar_of_isBare h c (hcs ▸ List.mem_cons_self)
  rw [hcs]
  exact ends_cons (Bool.eq_false_iff.mpr fun hpc => Bool.false_ne_true ((hp c hpc).symm.trans hc)) _

theorem isBareChar_of_eq {m : Char} (hm : isBareChar m = false) (c : Char) (hc : (c == m) = true) :
    isBareChar c = false := beq_iff_eq.mp hc ▸ hm

theorem isBareChar_of_isBlank (c : Char) (hc : isBlank c = true) : isBareChar c = false := by
  simp only [isBlank, Bool.or_eq_true, beq_iff_eq] at hc
  rcases hc with rfl | rfl <;> rfl

theorem simpleKey_append (h : isBare name = true) (hrest : Ends isBareChar rest) :
    simpleKey (name.toList ++ rest) = some (name, rest) := by
  have hbasic := basicString_needs _ (ends_bare h (isBareChar_of_eq rfl) rest)
  have hliteral : literalString (name.toList ++ rest) = none :=
    (needs_char '\'').bind _ _ (ends_bare h (isBareChar_of_eq rfl) rest)
  have hname := run1_append (toList_ne_nil h) (isBareChar_of_isBare h) hrest
  have hparts := (orElse_none hbasic).trans ((orElse_none hliteral).trans hname)
  exact (map_some hparts).trans (by rw [String.ofList_toList])

/-- A part of a dotted key, with blanks around it. -/
def keyPart : Reader String := do
  blanks
  let name ← simpleKey
  blanks
  pure name

theorem keyPart_append {bs : List Char} (h : isBare name = true)
    (hbs : ∀ c ∈ bs, isBlank c = true) (hrest : Ends (fun c => isBareChar c || isBlank c) rest) :
    keyPart (name.toList ++ (bs ++ rest)) = some (name, rest) := by
  have hbare : Ends isBareChar (bs ++ rest) := by
    cases bs with
    | nil => exact hrest.mono fun c hc => by rw [hc]; rfl
    | cons c bs => exact ends_cons (isBareChar_of_isBlank c (hbs c List.mem_cons_self)) _
  have hblank : Ends isBlank rest := hrest.mono fun c hc => by rw [hc, Bool.or_true]
  unfold keyPart
  rw [bind_some (blanks_none (ends_bare h isBareChar_of_isBlank _)),
    bind_some (simpleKey_append h hbare), bind_some (blanks_append hbs hblank)]
  rfl

/-- The first part of a dotted key, and then the other ones. -/
theorem exists_keyParts {names : List String} {bs : List Char} (hname : isBare name = true)
    (hnames : ∀ n ∈ names, isBare n = true) (hbs : ∀ c ∈ bs, isBlank c = true)
    (hrest : Ends (fun c => isBareChar c || isBlank c || c == '.') rest) :
    ∃ s, keyPart (name.toList ++ (names.flatMap (fun n => ['.'] ++ n.toList) ++ (bs ++ rest))) =
        some (name, s) ∧
      s.length ≤ (names.flatMap (fun n => ['.'] ++ n.toList) ++ (bs ++ rest)).length ∧
      Many (do let _ ← char '.'; keyPart) s names rest := by
  -- each part takes the blanks behind it, so the last one leaves less than is written
  induction names generalizing name with
  | nil =>
    refine ⟨rest, keyPart_append hname hbs (hrest.mono fun c hc => by simp_all), ?_, .stop ?_⟩
    · simp
    · exact bind_none (char_none (hrest.head_ne rfl))
  | cons n names ih =>
    obtain ⟨hn, hnames⟩ := List.forall_mem_cons.mp hnames
    obtain ⟨s, hpart, hlength, hmany⟩ := ih hn hnames
    have htext : (n :: names).flatMap (fun n => ['.'] ++ n.toList) ++ (bs ++ rest) =
        '.' :: (n.toList ++ (names.flatMap (fun n => ['.'] ++ n.toList) ++ (bs ++ rest))) := by
      rw [List.flatMap_cons, List.append_assoc, List.append_assoc]
      rfl
    rw [htext]
    generalize names.flatMap (fun n => ['.'] ++ n.toList) ++ (bs ++ rest) = tail at hpart hlength ⊢
    have hfirst := keyPart_append hname (List.forall_mem_nil _)
      (ends_cons (c := '.') rfl (n.toList ++ tail))
    have hnext : (do let _ ← char '.'; keyPart : Reader String) ('.' :: (n.toList ++ tail)) =
        some (n, s) := (bind_some (char_some _ _)).trans hpart
    refine ⟨_, hfirst, Nat.le_refl _, .more hnext ?_ hmany⟩
    rw [List.length_cons, List.length_append]
    omega

/-- Keys of bare names, which are not too deep. -/
structure Key.IsPlain (k : Key) : Prop where
  isBare : ∀ name ∈ k.parents ++ [k.name], isBare name = true
  depth : k.parents.length + 1 < depthLimit

theorem Key.IsPlain.exists_text {k : Key} (h : k.IsPlain) :
    ∃ name names, k.parents ++ [k.name] = name :: names ∧
      k.text.toList = name.toList ++ names.flatMap fun n => ['.'] ++ n.toList := by
  obtain ⟨name, names, hnames⟩ := List.exists_cons_of_ne_nil
    (List.append_ne_nil_of_right_ne_nil k.parents (List.cons_ne_nil k.name []))
  refine ⟨name, names, hnames, ?_⟩
  have htexts : (k.parents ++ [k.name]).map keyText = name :: names := by
    rw [← hnames]
    exact (List.map_congr_left fun n hn => if_pos (h.isBare n hn)).trans (List.map_id _)
  unfold Key.text
  rw [htexts, String.toList_intercalate, List.map_cons, intercalate_cons, List.flatMap_map]
  rfl

/-- A dotted key is read back, with the blanks behind it. -/
theorem key_text {k : Key} (h : k.IsPlain) {bs : List Char} (hbs : ∀ c ∈ bs, isBlank c = true)
    (hrest : Ends (fun c => isBareChar c || isBlank c || c == '.') rest) :
    key (k.text.toList ++ (bs ++ rest)) = some (k, rest) := by
  obtain ⟨name, names, hnames, htext⟩ := h.exists_text
  obtain ⟨hname, hothers⟩ := List.forall_mem_cons.mp (hnames ▸ h.isBare)
  obtain ⟨s, hpart, -, hmany⟩ := exists_keyParts hname hothers hbs hrest
  have hparts : separated keyPart (char '.') (k.text.toList ++ (bs ++ rest)) =
      some (k.parents ++ [k.name], rest) := by
    rw [htext, hnames, List.append_assoc]
    refine orElse_some ?_
    rw [bind_some hpart, bind_some hmany.many_eq]
    rfl
  have hdepth : (k.parents ++ [k.name]).length < depthLimit := by
    rw [List.length_append]
    exact h.depth
  unfold key
  refine (bind_some hparts).trans ?_
  rw [List.getLast?_concat, List.dropLast_concat]
  dsimp only
  rw [if_pos hdepth]
  rfl

/-! ## Lines -/

theorem Key.IsPlain.ends {k : Key} (h : k.IsPlain) {p : Char → Bool}
    (hp : ∀ c, p c = true → isBareChar c = false) (rest : List Char) :
    Ends p (k.text.toList ++ rest) := by
  obtain ⟨name, names, hnames, htext⟩ := h.exists_text
  rw [htext, List.append_assoc]
  exact ends_bare (h.isBare name (hnames ▸ List.mem_cons_self)) hp _

/-- The statements of documents that are read back. -/
inductive Statement.IsPlain : Statement → Prop
  | blank : IsPlain .blank
  | header {key : Key} (hkey : key.IsPlain) : IsPlain (.header key)
  | pair {key : Key} {value : Value} (hkey : key.IsPlain) (hvalue : value.IsReadBack) :
      IsPlain (.pair key value)

theorem lineEnd_newline (rest : List Char) : lineEnd ('\n' :: rest) = some ((), rest) := rfl

theorem toList_header (k : Key) (rest : List Char) :
    (Statement.header k).text.toList ++ rest = '[' :: (k.text.toList ++ ']' :: '\n' :: rest) := by
  simp [Statement.text]

theorem toList_pair (k : Key) (v : Value) (rest : List Char) :
    (Statement.pair k v).text.toList ++ rest =
      k.text.toList ++ ([' '] ++ '=' :: ([' '] ++ ((valueText v).toList ++ '\n' :: rest))) := by
  simp [Statement.text]

theorem statement_header {k : Key} (h : k.IsPlain) (rest : List Char) :
    statement ((Statement.header k).text.toList ++ rest) = some (.header k, rest) := by
  have hblank (s : List Char) : blankLine ('[' :: s) = none := rfl
  have harray (s : List Char) : arrayHeader ('[' :: (k.text.toList ++ s)) = none := by
    have hhead : Ends (· == '[') (k.text.toList ++ s) := h.ends (isBareChar_of_eq rfl) s
    refine bind_none (word_none ?_)
    rintro ⟨tail, htail⟩
    exact hhead.head_ne rfl (congrArg List.head? (List.cons_eq_cons.mp htail).2).symm
  have hkey := key_text h (List.forall_mem_nil _) (ends_cons (c := ']') rfl ('\n' :: rest))
  rw [List.nil_append] at hkey
  rw [toList_header]
  refine (orElse_none (hblank _)).trans <| (orElse_none (harray _)).trans (orElse_some ?_)
  unfold header
  rw [bind_some (char_some _ _), bind_some hkey, bind_some (char_some _ _),
    bind_some (lineEnd_newline rest)]
  rfl

theorem statement_pair {k : Key} {v : Value} (hkey : k.IsPlain) (hvalue : v.IsReadBack)
    (rest : List Char) :
    statement ((Statement.pair k v).text.toList ++ rest) = some (.pair k v, rest) := by
  have hclosed : Closed ('\n' :: rest) := ⟨'\n', by simp, rest, rfl⟩
  have hmark (m : Char) (hm : isBareChar m = false) (s : List Char) :
      Ends (· == m) (k.text.toList ++ s) := hkey.ends (isBareChar_of_eq hm) s
  have hblank (s : List Char) : blankLine (k.text.toList ++ s) = none := by
    have hnewline : newline (k.text.toList ++ s) = none := by
      refine newline_needs _ (hkey.ends (fun c hc => ?_) s)
      simp only [Bool.or_eq_true, beq_iff_eq] at hc
      rcases hc with rfl | rfl <;> rfl
    have hcomment := comment_needs _ (hmark '#' rfl s)
    exact bind_none ((orElse_none (bind_none hnewline)).trans (bind_none hcomment))
  have harray (s : List Char) : arrayHeader (k.text.toList ++ s) = none :=
    (needs_word rfl).bind _ _ (hmark '[' rfl s)
  have hheader (s : List Char) : header (k.text.toList ++ s) = none :=
    (needs_char '[').bind _ _ (hmark '[' rfl s)
  have hspace : ∀ c ∈ [' '], isBlank c = true := List.forall_mem_singleton.mpr rfl
  have hread := key_text hkey hspace
    (ends_cons (c := '=') rfl ([' '] ++ ((valueText v).toList ++ '\n' :: rest)))
  rw [toList_pair]
  refine (orElse_none (hblank _)).trans <| (orElse_none (harray _)).trans <|
    (orElse_none (hheader _)).trans ?_
  unfold pair
  rw [bind_some hread, bind_some (char_some _ _),
    bind_some (blanks_append hspace (hvalue.ends ('\n' :: rest))),
    bind_some (hvalue.read hclosed), bind_some (lineEnd_newline rest)]
  rfl

theorem Statement.IsPlain.read {s : Statement} (h : s.IsPlain) (rest : List Char) :
    statement (s.text.toList ++ rest) = some (s, rest) := by
  cases h with
  | blank => rfl
  | header hkey => exact statement_header hkey rest
  | pair hkey hvalue => exact statement_pair hkey hvalue rest

/-- A statement begins neither with a blank nor with a byte order mark. -/
theorem Statement.IsPlain.ends {s : Statement} (h : s.IsPlain) (rest : List Char) :
    Ends (fun c => isBlank c || c == '\ufeff') (s.text.toList ++ rest) := by
  have hbare (c : Char) (hc : (isBlank c || c == '\ufeff') = true) : isBareChar c = false := by
    rcases Bool.or_eq_true_iff.mp hc with hc | hc
    · exact isBareChar_of_isBlank c hc
    · exact isBareChar_of_eq rfl c hc
  cases h with
  | blank => exact ends_cons rfl _
  | header hkey =>
    rw [toList_header]
    exact ends_cons rfl _
  | pair hkey _ =>
    rw [toList_pair]
    exact hkey.ends hbare _

/-! ## Documents -/

theorem ends_lines {lines : List Statement} (h : ∀ s ∈ lines, s.IsPlain) :
    Ends (fun c => isBlank c || c == '\ufeff') (lines.flatMap fun s => s.text.toList) := by
  cases lines with
  | nil => exact ends_nil _
  | cons s lines => exact (h s List.mem_cons_self).ends _

theorem many_statements {lines : List Statement} (h : ∀ s ∈ lines, s.IsPlain) :
    Many (do let s ← statement; blanks; pure s) (lines.flatMap fun s => s.text.toList) lines [] := by
  induction lines with
  | nil => exact .stop rfl
  | cons s lines ih =>
    obtain ⟨hs, hlines⟩ := List.forall_mem_cons.mp h
    have hblank : Ends isBlank (lines.flatMap fun s => s.text.toList) :=
      (ends_lines hlines).mono fun c hc => by rw [hc]; rfl
    rw [List.flatMap_cons]
    -- a statement is written with a character at least, or nothing would be read from it
    refine (ih hlines).cons (fun hnil => ?_) ?_
    · have hread := hs.read []
      rw [hnil] at hread
      cases hread
    · rw [bind_some (hs.read _), bind_some (blanks_none hblank)]
      rfl

/-- The text of a document is read as its statements. -/
theorem whole?_render {lines : List Statement} (h : ∀ s ∈ lines, s.IsPlain) :
    statements.whole? (render lines) = some lines := by
  have hends := ends_lines h
  have hmark : char '\ufeff' (lines.flatMap fun s => s.text.toList) = none :=
    char_none (hends.head_ne rfl)
  have hblank : Ends isBlank (lines.flatMap fun s => s.text.toList) :=
    hends.mono fun c hc => by rw [hc]; rfl
  have hread : statements (render lines).toList = some (lines, []) := by
    unfold render statements
    rw [String.toList_join, List.flatMap_map, bind_some (maybe_none hmark),
      bind_some (blanks_none hblank), (many_statements h).many_eq]
  unfold whole?
  rw [hread]

/-- The text of a document is read as the table that its statements build. -/
theorem parse?_render {lines : List Statement} (h : ∀ s ∈ lines, s.IsPlain) :
    parse? (render lines) = ofStatements? lines := by
  unfold parse?
  rw [whole?_render h]
  rfl

end OnlineLearning.Toml
