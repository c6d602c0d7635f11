import OnlineLearning.Proofs.NearestFloats
import OnlineLearning.Proofs.Readers
import OnlineLearning.Toml.Writer

/-!
# Numbers are read back

Integers and floats are written in digits, and read back in front of everything that may follow a
value.

* `Toml.IsWhole` and `Toml.IsPositional`: how the digits of integers and of floats are written;
* `NumberStyle.isPositional_writeFinite`: the shortest decimal of a float, as it is written;
* `Toml.integer_toDigits`: integers are read back;
* `Toml.FloatText`: the texts of a float, with `Toml.FloatText.read` and `Toml.floatText_write64`.
-/

namespace OnlineLearning

open Reader

namespace Toml

/-! ## Digits -/

theorem ofDigits_concat (base : Nat) (ds : List Char) (c : Char) :
    ofDigits base (ds ++ [c]) = ofDigits base ds * base + digitValue c := List.foldl_concat _ _ _ _

theorem ofDigits_append (base : Nat) (front back : List Char) :
    ofDigits base (front ++ back) =
      ofDigits base front * base ^ back.length + ofDigits base back := by
  induction back using List.reverseRecOn with
  | nil =>
    rw [List.append_nil, List.length_nil, Nat.pow_zero, Nat.mul_one]
    rfl
  | append_singleton back c ih =>
    rw [← List.append_assoc, ofDigits_concat, ofDigits_concat, ih, List.length_append,
      List.length_singleton, Nat.pow_succ]
    ring

theorem ofDigits_zeros (base n : Nat) : ofDigits base (List.replicate n '0') = 0 := by
  induction n with
  | zero => rfl
  | succ n ih =>
    rw [List.replicate_succ', ofDigits_concat, ih, Nat.zero_mul]
    rfl

theorem isDigit_toDigits {n : Nat} {c : Char} (hc : c ∈ Nat.toDigits 10 n) : c.isDigit = true :=
  Nat.isDigit_of_mem_toDigits (by decide) (by decide) hc

theorem ofDigits_toDigits (n : Nat) : ofDigits 10 (Nat.toDigits 10 n) = n := by
  refine Eq.trans (List.foldl_ext _ _ _ fun sum c hc => ?_) Nat.ofDigitChars_ten_toDigits
  rw [digitValue, if_pos (isDigit_toDigits hc), Nat.mul_comm]

/-- The digits of a number begin with zero only if there is one digit. -/
inductive IsWhole : List Char → Prop
  | zero : IsWhole ['0']
  | digits {d : Char} {ds : List Char} (hd : d.isDigit = true) (hzero : d ≠ '0')
      (hds : ∀ c ∈ ds, c.isDigit = true) : IsWhole (d :: ds)

theorem IsWhole.isDigit {ds : List Char} (h : IsWhole ds) : ∀ c ∈ ds, c.isDigit = true := by
  cases h with
  | zero => exact List.forall_mem_singleton.mpr rfl
  | digits hd _ hds => exact List.forall_mem_cons.mpr ⟨hd, hds⟩

/-- The first digit of a positive number. -/
theorem exists_toDigits {n : Nat} (hpos : 0 < n) :
    ∃ d ds, Nat.toDigits 10 n = d :: ds ∧ d ≠ '0' := by
  induction n using Nat.strongRecOn with
  | ind n ih =>
    by_cases hless : n < 10
    · refine ⟨n.digitChar, [], Nat.toDigits_of_lt_base hless, ?_⟩
      have hdigit : ∀ k : Fin 10, 0 < k.val → k.val.digitChar ≠ '0' := by decide
      exact hdigit ⟨n, hless⟩ hpos
    · have hbase : 10 ≤ n := Nat.le_of_not_lt hless
      obtain ⟨d, ds, hds, hd⟩ := ih (n / 10) (Nat.div_lt_self hpos (by decide))
        (Nat.div_pos hbase (by decide))
      refine ⟨d, ds ++ [(n % 10).digitChar], ?_, hd⟩
      rw [Nat.toDigits_of_base_le (by decide) hbase, hds]
      rfl

theorem isWhole_toDigits (n : Nat) : IsWhole (Nat.toDigits 10 n) := by
  rcases Nat.eq_zero_or_pos n with rfl | hpos
  · exact .zero
  · obtain ⟨d, ds, hds, hd⟩ := exists_toDigits hpos
    have hdigits : ∀ c ∈ d :: ds, c.isDigit = true := hds ▸ fun c hc => isDigit_toDigits hc
    rw [hds]
    exact .digits (hdigits d List.mem_cons_self) hd fun c hc =>
      hdigits c (List.mem_cons_of_mem _ hc)

/-- Digits on both sides of a point, and the number that they stand for. -/
structure IsPositional (front back : List Char) (r : ℚ) : Prop where
  whole : IsWhole front
  ne_nil : back ≠ []
  isDigit : ∀ c ∈ back, c.isDigit = true
  value : (ofDigits 10 (front ++ back) : ℚ) / 10 ^ back.length = r

end Toml

/-! ## Decimals -/

namespace NumberStyle

open Toml

/-- Trailing zeros are taken off. -/
theorem exists_zeros (ds : List Char) :
    ∃ n, ds = (ds.reverse.dropWhile (· == '0')).reverse ++ List.replicate n '0' := by
  refine ⟨(ds.reverse.takeWhile (· == '0')).length, ?_⟩
  have hzeros : ds.reverse.takeWhile (· == '0') =
      List.replicate (ds.reverse.takeWhile (· == '0')).length '0' :=
    List.eq_replicate_iff.mpr ⟨rfl, fun c hc =>
      beq_iff_eq.mp (List.mem_takeWhile_imp (p := (· == '0')) hc)⟩
  rw [← List.reverse_replicate, ← hzeros, ← List.reverse_append, List.takeWhile_append_dropWhile,
    List.reverse_reverse]

/-- What `significant` keeps of the digits of a positive decimal. -/
theorem significant_spec {d : Decimal} (hpos : 0 < d.digits) :
    ∃ first ds, (significant d).1 = first :: ds ∧ first ≠ '0' ∧
      (∀ c ∈ first :: ds, c.isDigit = true) ∧
      (ofDigits 10 (first :: ds) : ℚ) * 10 ^ ((significant d).2 - ds.length) = d.value := by
  obtain ⟨n, hn⟩ := exists_zeros (Nat.toDigits 10 d.digits)
  obtain ⟨first, rest, hdigits, hfirst⟩ := exists_toDigits hpos
  have hall (c : Char) (hc : c ∈ (significant d).1) : c.isDigit = true :=
    isDigit_toDigits (hn ▸ List.mem_append_left _ hc)
  change _ = (significant d).1 ++ _ at hn
  cases hkept : (significant d).1 with
  | nil =>
    -- the first digit is not zero, so it is kept
    rw [hkept, hdigits, List.nil_append] at hn
    have hmem : first ∈ List.replicate n '0' := hn ▸ List.mem_cons_self
    exact absurd (List.eq_of_mem_replicate hmem) hfirst
  | cons first' ds =>
    rw [hkept] at hn hall
    have hhead : first' = first := by
      rw [hdigits] at hn
      exact (List.cons_eq_cons.mp hn).1.symm
    refine ⟨first', ds, rfl, hhead ▸ hfirst, hall, ?_⟩
    have hvalue : d.digits = ofDigits 10 (first' :: ds) * 10 ^ n := by
      conv_lhs => rw [← ofDigits_toDigits d.digits, hn, ofDigits_append, ofDigits_zeros,
        List.length_replicate, Nat.add_zero]
    have hlead : (significant d).2 - ds.length = d.exponent + n := by
      have hlength := congrArg List.length hn
      rw [List.length_append, List.length_replicate, List.length_cons] at hlength
      change d.exponent + (Nat.toDigits 10 d.digits).length - 1 - _ = _
      omega
    rw [hlead, Decimal.value, hvalue, zpow_add₀ (by norm_num), zpow_natCast]
    push_cast
    ring

theorem isDigit_zeros (n : Nat) : ∀ c ∈ List.replicate n '0', c.isDigit = true := fun c hc => by
  rw [List.eq_of_mem_replicate hc]
  rfl

section

variable {first : Char} {ds : List Char} (hdigits : ∀ c ∈ first :: ds, c.isDigit = true)
include hdigits

/-- The point in front of the digits, and of zeros. -/
theorem isPositional_front (n : Nat) :
    IsPositional ['0'] (List.replicate n '0' ++ first :: ds)
      (ofDigits 10 (first :: ds) * 10 ^ (-(n + 1 : Nat) - (ds.length : Int))) := by
  refine ⟨.zero, by simp, List.forall_mem_append.mpr ⟨isDigit_zeros n, hdigits⟩, ?_⟩
  have hsplit : (10 : ℚ) ^ (-(n + 1 : Nat) - (ds.length : Int)) =
      1 / 10 ^ (List.replicate n '0' ++ first :: ds).length := by
    rw [List.length_append, List.length_replicate, List.length_cons, one_div, ← zpow_natCast,
      ← zpow_neg]
    congr 1
    push_cast
    ring
  rw [hsplit, mul_one_div, ofDigits_append, ofDigits_append, ofDigits_zeros, Nat.zero_mul,
    Nat.zero_add]
  simp [ofDigits, digitValue]

/-- The point between two digits. -/
theorem isPositional_inside (hfirst : first ≠ '0') {n : Nat} (hn : n < ds.length) :
    IsPositional (first :: ds.take n) (ds.drop n)
      (ofDigits 10 (first :: ds) * 10 ^ ((n : Int) - ds.length)) := by
  obtain ⟨hd, hds⟩ := List.forall_mem_cons.mp hdigits
  have hback : ds.drop n ≠ [] := by
    rw [← List.length_pos_iff_ne_nil, List.length_drop]
    omega
  refine ⟨.digits hd hfirst fun c hc => hds c (List.mem_of_mem_take hc), hback,
    fun c hc => hds c (List.mem_of_mem_drop hc), ?_⟩
  have hsplit : (10 : ℚ) ^ ((n : Int) - ds.length) = 1 / 10 ^ (ds.drop n).length := by
    rw [List.length_drop, one_div, ← zpow_natCast, ← zpow_neg, Nat.cast_sub hn.le, neg_sub]
  rw [List.cons_append, List.take_append_drop]
  exact (mul_one_div _ _).symm.trans (congrArg _ hsplit.symm)

/-- The point behind the digits, and behind zeros. -/
theorem isPositional_behind (hfirst : first ≠ '0') {n : Nat} (hn : ds.length ≤ n) :
    IsPositional (first :: (ds ++ List.replicate (n - ds.length) '0')) ['0']
      (ofDigits 10 (first :: ds) * 10 ^ ((n : Int) - ds.length)) := by
  obtain ⟨hd, hds⟩ := List.forall_mem_cons.mp hdigits
  refine ⟨.digits hd hfirst (List.forall_mem_append.mpr ⟨hds, isDigit_zeros _⟩),
    List.cons_ne_nil _ _, isDigit_zeros 1, ?_⟩
  have hsplit : (10 : ℚ) ^ ((n : Int) - ds.length) = (10 ^ (n - ds.length) : Nat) := by
    rw [← Nat.cast_sub hn, zpow_natCast]
    push_cast
    rfl
  rw [hsplit, ← List.cons_append, ofDigits_append, ofDigits_append, ofDigits_zeros,
    List.length_replicate]
  simp [ofDigits, digitValue]

/-- Digits are laid out around a point. -/
theorem positional_spec (hfirst : first ≠ '0') (lead : Int) :
    ∃ front back, positional (first :: ds) lead = String.ofList (front ++ '.' :: back) ∧
      IsPositional front back (ofDigits 10 (first :: ds) * 10 ^ (lead - ds.length)) := by
  unfold positional
  by_cases hneg : lead < 0
  · obtain ⟨n, hn⟩ := Int.eq_ofNat_of_zero_le (show 0 ≤ -lead - 1 by omega)
    obtain rfl : lead = -(n + 1 : Nat) := by omega
    refine ⟨_, _, ?_, isPositional_front hdigits n⟩
    rw [if_pos hneg, hn]
    simp [String.ext_iff]
  · obtain ⟨n, rfl⟩ := Int.eq_ofNat_of_zero_le (Int.not_lt.mp hneg)
    rw [if_neg hneg]
    by_cases hmore : n < ds.length
    · refine ⟨_, _, ?_, isPositional_inside hdigits hfirst hmore⟩
      have hzero : n + 1 - (ds.length + 1) = 0 := by omega
      have hback : ¬ ds.length ≤ n := Nat.not_le_of_lt hmore
      simp [String.ext_iff, hzero, hback]
    · have hall := Nat.le_of_not_lt hmore
      refine ⟨_, _, ?_, isPositional_behind hdigits hfirst hall⟩
      have hdrop : ds.drop n = [] := List.drop_eq_nil_of_le hall
      have htake : ds.take n = ds := List.take_of_length_le hall
      simp [String.ext_iff, hdrop, htake]

end

/-- How the magnitude of a float is written: the value is that of its shortest decimal. -/
theorem isPositional_writeFinite {v : Binary} (hpos : 0 < (v.shortest .up).digits) :
    ∃ front back, floatStyle.writeFinite v = String.ofList (front ++ '.' :: back) ∧
      IsPositional front back (v.shortest .up).value := by
  obtain ⟨first, ds, hkept, hfirst, hdigits, hvalue⟩ := significant_spec hpos
  obtain ⟨front, back, htext, hpositional⟩ :=
    positional_spec hdigits hfirst (significant (v.shortest .up)).2
  rw [← hkept] at htext
  exact ⟨front, back, htext, hvalue ▸ hpositional⟩

end NumberStyle

namespace Toml

/-! ## What follows a value -/

/-- Behind a value there is a comma, a bracket or a line break. -/
def Closed (rest : List Char) : Prop := ∃ c ∈ [',', ']', '\n'], ∃ s, rest = c :: s

variable {rest : List Char}

theorem Closed.ends {p : Char → Bool} (h : Closed rest)
    (hp : p ',' = false ∧ p ']' = false ∧ p '\n' = false) : Ends p rest := by
  obtain ⟨c, hc, s, rfl⟩ := h
  simp only [List.mem_cons, List.not_mem_nil, or_false] at hc
  rcases hc with rfl | rfl | rfl
  · exact ends_cons hp.1 s
  · exact ends_cons hp.2.1 s
  · exact ends_cons hp.2.2 s

theorem Closed.head_ne (h : Closed rest) {m : Char} (hm : m ∉ [',', ']', '\n']) :
    rest.head? ≠ some m := by
  obtain ⟨c, hc, s, rfl⟩ := h
  exact fun heq => hm (Option.some.inj heq ▸ hc)

/-! ## Runs of digits -/

/-- A group of digits, which ends where there is neither a digit nor an underscore. -/
theorem many_digits {ds : List Char} (hds : ∀ c ∈ ds, c.isDigit = true)
    (hrest : Ends (fun c => c.isDigit || c == '_') rest) :
    Many (one Char.isDigit <|> do char '_'; one Char.isDigit) (ds ++ rest) ds rest := by
  induction ds with
  | nil =>
    exact .stop ((needs_one _).orElse ((needs_char '_').bind _) rest hrest)
  | cons d ds ih =>
    have ih := ih fun c hc => hds c (List.mem_cons_of_mem _ hc)
    have hone := one_some (hds d List.mem_cons_self) (ds ++ rest)
    change Many _ ([d] ++ (ds ++ rest)) _ _
    exact ih.cons (List.cons_ne_nil d []) (orElse_some hone)

theorem digitGroup_append {ds : List Char} (hne : ds ≠ []) (hds : ∀ c ∈ ds, c.isDigit = true)
    (hrest : Ends (fun c => c.isDigit || c == '_') rest) :
    digitGroup Char.isDigit (ds ++ rest) = some (ds, rest) := by
  obtain ⟨d, ds, rfl⟩ := List.exists_cons_of_ne_nil hne
  obtain ⟨hd, hds⟩ := List.forall_mem_cons.mp hds
  unfold digitGroup
  rw [List.cons_append, bind_some (one_some hd _), bind_some (many_digits hds hrest).many_eq]
  rfl

theorem wholeDigits_append {ds : List Char} (h : IsWhole ds)
    (hrest : Ends (fun c => c.isDigit || c == '_') rest) :
    wholeDigits (ds ++ rest) = some (ds, rest) := by
  cases h with
  | zero => rfl
  | @digits d ds hd hzero hds =>
    have hfirst : (d.isDigit && d != '0') = true := by simp [hd, hzero]
    refine orElse_some ?_
    rw [List.cons_append, bind_some (one_some hfirst _), bind_some (many_digits hds hrest).many_eq]
    rfl

theorem sign_none {s : List Char} (h : Ends (fun c => c == '+' || c == '-') s) :
    sign s = some (false, s) := bind_some (maybe_none (one_none h))

theorem sign_minus (s : List Char) : sign ('-' :: s) = some (true, s) := rfl

/-- A class of characters has no digits if it has none of these ten. -/
theorem not_of_isDigit {p : Char → Bool} (hp : ∀ k : Fin 10, p (Char.ofNat (48 + k)) = false)
    {d : Char} (hd : d.isDigit = true) : p d = false := by
  obtain ⟨hlow, hhigh⟩ := Char.isDigit_iff_toNat.mp hd
  have hless : d.toNat - 48 < 10 := by
    change d.toNat ≤ 57 at hhigh
    omega
  have hcode : 48 + (d.toNat - 48) = d.toNat := Nat.add_sub_of_le hlow
  have hdigit := hp ⟨d.toNat - 48, hless⟩
  rwa [hcode, Char.ofNat_toNat] at hdigit

/-- A class without digits ends where a number begins. -/
theorem IsWhole.ends {p : Char → Bool} {ds : List Char} (h : IsWhole ds)
    (hp : ∀ k : Fin 10, p (Char.ofNat (48 + k)) = false) (rest : List Char) :
    Ends p (ds ++ rest) := by
  cases h with
  | zero => exact ends_cons (hp 0) _
  | digits hd => exact ends_cons (not_of_isDigit hp hd) _

theorem IsWhole.sign_none {ds : List Char} (h : IsWhole ds) (rest : List Char) :
    sign (ds ++ rest) = some (false, ds ++ rest) := Toml.sign_none (h.ends (by decide) rest)

theorem dropWhile_digits {ds : List Char} (hds : ∀ c ∈ ds, c.isDigit = true)
    (hrest : Ends Char.isDigit rest) : (ds ++ rest).dropWhile Char.isDigit = rest :=
  (Prod.mk.inj (Option.some.inj (run_append hds hrest))).2

/-! ## Dates -/

theorem numberWithin_needs {count : Nat} (hcount : 0 < count) (low high : Nat) :
    (numberWithin count low high).Needs Char.isDigit := by
  obtain ⟨n, rfl⟩ := Nat.exists_eq_succ_of_ne_zero (Nat.ne_of_gt hcount)
  unfold numberWithin
  rw [List.replicate_succ, List.mapM_cons]
  exact ((needs_one _).bind _).bind _

/-- A number of a date takes nothing but digits. -/
theorem of_numberWithin {count low high n : Nat} {s : List Char}
    (h : numberWithin count low high s = some (n, rest)) :
    ∃ ds, s = ds ++ rest ∧ ∀ c ∈ ds, c.isDigit = true := by
  unfold numberWithin at h
  cases hdigits : ((List.replicate count ()).mapM fun _ => one Char.isDigit : Reader _) s with
  | none =>
    rw [bind_none hdigits] at h
    cases h
  | some read =>
    obtain ⟨ds, s'⟩ := read
    rw [bind_some hdigits] at h
    split at h
    · cases h
      exact ⟨ds, of_mapM_one hdigits⟩
    · cases h

/-- There is no number of a date where another mark stands behind the digits. -/
theorem numberWithin_char_none {α : Type} {mark : Char} (hmark : mark.isDigit = false)
    {s : List Char} (h : (s.dropWhile Char.isDigit).head? ≠ some mark) (count low high : Nat)
    (f : Nat → Unit → Reader α) :
    (do let n ← numberWithin count low high; let u ← char mark; f n u) s = none := by
  cases hnumber : numberWithin count low high s with
  | none => exact bind_none hnumber
  | some read =>
    obtain ⟨n, s'⟩ := read
    obtain ⟨ds, rfl, hds⟩ := of_numberWithin hnumber
    rw [bind_some hnumber]
    refine bind_none (char_none fun hhead => h ?_)
    have hends : Ends Char.isDigit s' := fun c hc => by
      obtain rfl := Option.some.inj (hhead.symm.trans hc)
      exact hmark
    rw [dropWhile_digits hds hends]
    exact hhead

theorem source_none {α : Type} {r : Reader α} {s : List Char} (h : r s = none) :
    source r s = none := by
  unfold source
  rw [h]
  rfl

/-- There is no date where neither a dash nor a colon stands behind the first digits. -/
theorem dateTime_digits {ds : List Char} (hds : ∀ c ∈ ds, c.isDigit = true)
    (hrest : Ends (fun c => c.isDigit || c == '-' || c == ':') rest) :
    dateTime (ds ++ rest) = none := by
  have hdrop := dropWhile_digits hds (hrest.mono fun c hc => by rw [hc]; rfl)
  have hdate : date (ds ++ rest) = none :=
    numberWithin_char_none rfl (hdrop.symm ▸ hrest.head_ne rfl) _ _ _ _
  have htime : time (ds ++ rest) = none :=
    numberWithin_char_none rfl (hdrop.symm ▸ hrest.head_ne rfl) _ _ _ _
  exact bind_none (source_none ((orElse_none (bind_none hdate)).trans htime))

theorem dateTime_needs : dateTime.Needs Char.isDigit := fun s hs => by
  have hdate : date s = none := (numberWithin_needs (by decide) _ _).bind _ s hs
  have htime : time s = none := (numberWithin_needs (by decide) _ _).bind _ s hs
  exact bind_none (source_none ((orElse_none (bind_none hdate)).trans htime))

/-! ## Integers -/

/-- Marks of other bases are not found in decimals. -/
theorem based_none {mark : String} {m : Char} (hmark : mark.toList = ['0', m])
    (hm : m.isDigit = false) {s : List Char} (h : (s.dropWhile Char.isDigit).head? ≠ some m)
    (base : Nat) (p : Char → Bool) : based mark base p s = none := by
  refine bind_none (word_none ?_)
  rw [hmark]
  rintro ⟨tail, rfl⟩
  refine h ?_
  have hzero : '0'.isDigit = true := rfl
  simp [hzero, hm]

theorem integer_toDigits {n : Nat} (hn : isInteger n = true) (hrest : Closed rest) :
    integer (Nat.toDigits 10 n ++ rest) = some (.integer n, rest) := by
  have hwhole := isWhole_toDigits n
  have hmark (m : Char) (hm : m ∉ [',', ']', '\n']) :
      ((Nat.toDigits 10 n ++ rest).dropWhile Char.isDigit).head? ≠ some m := by
    rw [dropWhile_digits hwhole.isDigit (hrest.ends (by decide))]
    exact hrest.head_ne hm
  refine (orElse_none (based_none rfl (by decide) (hmark 'x' (by decide)) _ _)).trans ?_
  refine (orElse_none (based_none rfl (by decide) (hmark 'o' (by decide)) _ _)).trans ?_
  refine (orElse_none (based_none rfl (by decide) (hmark 'b' (by decide)) _ _)).trans ?_
  rw [bind_some (hwhole.sign_none rest)]
  dsimp only
  rw [bind_some (wholeDigits_append hwhole (hrest.ends (by decide))), ofDigits_toDigits]
  unfold checked
  rw [if_neg Bool.false_ne_true, if_pos hn]
  rfl

/-! ## Floats -/

theorem exponentPart_needs : exponentPart.Needs fun c => c == 'e' || c == 'E' := (needs_one _).bind _

/-- Integers are no floats. -/
theorem finiteFloat_toDigits (n : Nat) (hrest : Closed rest) :
    finiteFloat (Nat.toDigits 10 n ++ rest) = none := by
  have hwhole := isWhole_toDigits n
  have hexponent := exponentPart_needs rest (hrest.ends (by decide))
  have hpoint : char '.' rest = none := char_none (hrest.head_ne (by decide))
  unfold finiteFloat
  rw [bind_some (hwhole.sign_none rest),
    bind_some (wholeDigits_append hwhole (hrest.ends (by decide)))]
  exact bind_none ((orElse_none (map_none hexponent)).trans (bind_none hpoint))

/-- The text of a sign. -/
def signText (negative : Bool) : List Char := if negative then ['-'] else []

theorem sign_signText (negative : Bool) {s : List Char}
    (h : sign s = some (false, s)) : sign (signText negative ++ s) = some (negative, s) := by
  cases negative with
  | false => exact h
  | true => exact sign_minus s

/-- Digits on both sides of a point are read as the float nearest to them. -/
theorem finiteFloat_positional {front back : List Char} {r : ℚ} (h : IsPositional front back r)
    (negative : Bool) {x : Float} (hrest : Closed rest)
    (hx : let magnitude := nearestFloat (ofDigits 10 (front ++ back)) (-back.length)
      (if negative then -magnitude else magnitude) = x ∧ (x == 1 / 0) = false) :
    finiteFloat (signText negative ++ (front ++ '.' :: (back ++ rest))) = some (.float x, rest) := by
  obtain ⟨hwhole, hne, hback, -⟩ := h
  have hgroup : digitGroup Char.isDigit (back ++ rest) = some (back, rest) :=
    digitGroup_append hne hback (hrest.ends (by decide))
  have hexponent : exponentPart ('.' :: (back ++ rest)) = none :=
    exponentPart_needs _ (ends_cons (by decide) _)
  have hnone : maybe exponentPart rest = some (none, rest) :=
    maybe_none (exponentPart_needs rest (hrest.ends (by decide)))
  have hfraction : ((fun e => ([], e)) <$> exponentPart <|> do
      char '.'
      let fraction ← digitGroup Char.isDigit
      pure (fraction, (← maybe exponentPart).getD 0) : Reader (List Char × Int))
        ('.' :: (back ++ rest)) = some ((back, 0), rest) := by
    refine (orElse_none (map_none hexponent)).trans ?_
    rw [bind_some (char_some _ _), bind_some hgroup, bind_some hnone]
    rfl
  unfold finiteFloat
  rw [bind_some (sign_signText negative (hwhole.sign_none _)),
    bind_some (wholeDigits_append hwhole (ends_cons (by decide) _)), bind_some hfraction]
  dsimp only at hx ⊢
  rw [Int.zero_sub, hx.1, hx.2]
  rfl

/-- The texts of a float. -/
inductive FloatText (x : Float) : List Char → Prop
  | positional (negative : Bool) {front back : List Char} {r : ℚ} (h : IsPositional front back r)
      (hx : let magnitude := nearestFloat (ofDigits 10 (front ++ back)) (-back.length)
        (if negative then -magnitude else magnitude) = x ∧ (x == 1 / 0) = false) :
      FloatText x (signText negative ++ (front ++ '.' :: back))
  | infinite (negative : Bool) (hx : (if negative then -(1 / 0) else 1 / 0) = x) :
      FloatText x (signText negative ++ "inf".toList)
  | notANumber (hx : 0 / 0 = x) : FloatText x "nan".toList

/-- A class ends where a float begins if it has no digits and none of these characters. -/
theorem FloatText.ends {x : Float} {text : List Char} (h : FloatText x text) {p : Char → Bool}
    (hdigits : ∀ k : Fin 10, p (Char.ofNat (48 + k)) = false)
    (hmarks : p '-' = false ∧ p 'i' = false ∧ p 'n' = false) (rest : List Char) :
    Ends p (text ++ rest) := by
  have hminus (s : List Char) : Ends p ('-' :: s) := ends_cons hmarks.1 s
  cases h with
  | positional negative h _ =>
    cases negative with
    | false =>
      rw [List.append_assoc, List.append_assoc]
      exact h.whole.ends hdigits _
    | true => exact hminus _
  | infinite negative _ =>
    cases negative with
    | false => exact ends_cons hmarks.2.1 _
    | true => exact hminus _
  | notANumber _ => exact ends_cons hmarks.2.2 _

theorem IsPositional.dateTime_none {front back : List Char} {r : ℚ} (h : IsPositional front back r)
    (rest : List Char) : dateTime (front ++ '.' :: (back ++ rest)) = none :=
  dateTime_digits h.whole.isDigit (ends_cons rfl _)

theorem FloatText.dateTime_none {x : Float} {text : List Char} (h : FloatText x text)
    (rest : List Char) : dateTime (text ++ rest) = none := by
  have hminus (s : List Char) : dateTime ('-' :: s) = none := dateTime_needs _ (ends_cons rfl s)
  cases h with
  | positional negative h _ =>
    rw [List.append_assoc, List.append_assoc]
    cases negative with
    | false => exact h.dateTime_none rest
    | true => exact hminus _
  | infinite negative _ =>
    cases negative with
    | false => rfl
    | true => exact hminus _
  | notANumber _ => rfl

/-- The texts of a float are read as this float. -/
theorem FloatText.read {x : Float} {text : List Char} (h : FloatText x text) (hrest : Closed rest)
    (nested : Reader Value) : (finiteFloat <|> integer <|> specialFloat <|> nested) (text ++ rest) =
      some (.float x, rest) := by
  cases h with
  | positional negative h hx =>
    rw [List.append_assoc, List.append_assoc]
    exact orElse_some (finiteFloat_positional h negative hrest hx)
  | infinite negative hx =>
    subst hx
    cases negative <;> rfl
  | notANumber hx =>
    subst hx
    rfl

open Packed in
/-- Every float is written as a text of it. -/
theorem floatText_write64 (x : Float) : FloatText x (floatStyle.write64 x).toList := by
  have hdenotes := denotes x
  have hinfinite : unpacked (1 / 0 : Float) = .infinity .positive := by rfl
  unfold NumberStyle.write64 NumberStyle.write
  cases hdecode : Binary.decode binary64 x.toBits.toNat with
  | mk negative magnitude =>
    rw [hdecode] at hdenotes
    dsimp only at hdenotes ⊢
    cases magnitude with
    | zero =>
      have hzero : IsPositional ['0'] ['0'] 0 :=
        ⟨.zero, List.cons_ne_nil _ _, List.forall_mem_singleton.mpr rfl,
          by simp [ofDigits, digitValue]⟩
      have hx : (if negative then -0 else 0) = x :=
        unpacked_inj (hdenotes ▸ by cases negative <;> rfl)
      have hfinite : (x == 1 / 0) = false := by
        rw [← Bool.not_eq_true, beq_iff, hdenotes, hinfinite]
        cases negative <;> exact nofun
      have htext := FloatText.positional negative hzero ⟨hx, hfinite⟩
      cases negative <;> exact htext
    | finite v =>
      have hfinite : (Binary.decode binary64 x.toBits.toNat).2 = .finite v := by rw [hdecode]
      obtain ⟨front, back, hlayout, hpositional⟩ :=
        NumberStyle.isPositional_writeFinite (Binary.shortest_pos (inFormat_decode hfinite) .up)
      have hback : 0 < back.length := List.length_pos_of_ne_nil hpositional.ne_nil
      have hread := nearestFloat_shortest hfinite .up hback hpositional.value
      rw [hdecode] at hread
      have htext := FloatText.positional negative hpositional hread
      dsimp only
      rw [hlayout, String.toList_append, String.toList_ofList]
      cases negative <;> exact htext
    | infinite =>
      have hx : (if negative then -(1 / 0) else 1 / 0) = x :=
        unpacked_inj (hdenotes ▸ by cases negative <;> rfl)
      have htext := FloatText.infinite negative hx
      cases negative <;> exact htext
    | notANumber => exact .notANumber (unpacked_inj (hdenotes ▸ by rfl))

end Toml

end OnlineLearning
