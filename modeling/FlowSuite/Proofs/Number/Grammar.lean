/-
Which texts are numbers.

A text counts as a number if the reader takes all of it.  The grammar says which texts these
are without a reader: a minus sign or none, a whole part, a point with digits or nothing, a
mark with an exponent or nothing, each described on its own.  The two agree because the
reader never has a choice: no part starts with a character that the part before it could go
on with.

A number can also be told by cutting instead of reading: at the first mark of an exponent, and
what stands before the mark at the first point.  A cut looks for its one character and takes
whatever stands on both sides, so nothing says beforehand that it falls between two parts.
It does, because no part before the mark holds a mark, and no part before the point a point.
-/
import FlowSuite.Proofs.Expression.Numeral
import Mathlib.Data.List.TakeWhile

namespace FlowSuite.Numeral

/-! ### The grammar -/

/-- One digit or more. -/
def IsDigits (cs : List Char) : Prop :=
  cs ≠ [] ∧ ∀ c ∈ cs, c.isDigit = true

/-- A zero alone, or digits of which the first is no zero. -/
def IsWhole (cs : List Char) : Prop :=
  cs = ['0'] ∨ IsDigits cs ∧ cs.head? ≠ some '0'

/-- Nothing, or a point and digits. -/
def IsFraction (cs : List Char) : Prop :=
  cs = [] ∨ ∃ ds, cs = '.' :: ds ∧ IsDigits ds

/-- Nothing, or a mark, a sign of either kind or none, and digits. -/
def IsExponent (cs : List Char) : Prop :=
  cs = [] ∨ ∃ mark sign ds, cs = mark :: (sign ++ ds) ∧ mark ∈ ['e', 'E'] ∧
    sign ∈ [[], ['+'], ['-']] ∧ IsDigits ds

/-- A minus sign or none, and then the three parts with nothing else around them. -/
def IsSpelled (cs : List Char) : Prop :=
  ∃ sign whole fraction exponent, cs = sign ++ (whole ++ (fraction ++ exponent)) ∧
    sign ∈ [[], ['-']] ∧ IsWhole whole ∧ IsFraction fraction ∧ IsExponent exponent

theorem isDigits_singleton {d : Char} (hd : d.isDigit = true) : IsDigits [d] :=
  ⟨List.cons_ne_nil _ _, List.forall_mem_singleton.mpr hd⟩

theorem IsWhole.isDigits {cs : List Char} (h : IsWhole cs) : IsDigits cs := by
  rcases h with rfl | ⟨hdigits, -⟩
  · exact isDigits_singleton rfl
  · exact hdigits

/-- Digits start with a digit. -/
theorem IsDigits.exists_cons {cs : List Char} (h : IsDigits cs) :
    ∃ d ds, cs = d :: ds ∧ d.isDigit = true ∧ ∀ c ∈ ds, c.isDigit = true := by
  obtain ⟨hne, hdigits⟩ := h
  obtain ⟨d, ds, rfl⟩ := List.exists_cons_of_ne_nil hne
  exact ⟨d, ds, rfl, List.forall_mem_cons.mp hdigits⟩

/-! ### Signs -/

/-- The characters without a sign in front. -/
def dropSign (signs : List Char) : List Char → List Char
  | [] => []
  | c :: cs => if c ∈ signs then cs else c :: cs

theorem exists_dropSign (signs cs : List Char) :
    ∃ sign ∈ [] :: signs.map ([·]), cs = sign ++ dropSign signs cs := by
  cases cs with
  | nil => exact ⟨[], List.mem_cons_self, rfl⟩
  | cons c cs =>
      by_cases hc : c ∈ signs
      · refine ⟨[c], List.mem_cons_of_mem _ (List.mem_map_of_mem hc), ?_⟩
        rw [dropSign, if_pos hc, List.singleton_append]
      · refine ⟨[], List.mem_cons_self, ?_⟩
        rw [dropSign, if_neg hc, List.nil_append]

/-- A sign in front of digits is dropped, and digits without a sign are left as they are. -/
theorem IsDigits.dropSign_append {signs sign ds : List Char} (hds : IsDigits ds)
    (hsigns : ∀ c ∈ signs, c.isDigit = false) (hsign : sign ∈ [] :: signs.map ([·]))
    (rest : List Char) : dropSign signs (sign ++ (ds ++ rest)) = ds ++ rest := by
  rcases List.mem_cons.mp hsign with rfl | hsign
  · obtain ⟨d, ds, rfl, hd, -⟩ := hds.exists_cons
    apply if_neg
    intro hmem
    rw [hsigns d hmem] at hd
    cases hd
  · obtain ⟨c, hc, rfl⟩ := List.mem_map.mp hsign
    exact if_pos hc

theorem snd_readSign (cs : List Char) : (readSign cs).2 = dropSign ['-'] cs := by
  unfold readSign
  split
  · rfl
  · rename_i hminus
    cases cs with
    | nil => rfl
    | cons c cs =>
        refine (if_neg ?_).symm
        rw [List.mem_singleton]
        rintro rfl
        exact hminus cs rfl

theorem snd_readExponentSign (cs : List Char) :
    (readExponentSign cs).2 = dropSign ['+', '-'] cs := by
  unfold readExponentSign
  split
  · rfl
  · rfl
  · rename_i hminus hplus
    cases cs with
    | nil => rfl
    | cons c cs =>
        refine (if_neg ?_).symm
        rw [List.mem_pair]
        rintro (rfl | rfl)
        · exact hplus cs rfl
        · exact hminus cs rfl

/-- The minus sign of a number is the one in front of its whole part. -/
theorem IsWhole.dropSign_append {sign whole : List Char} (h : IsWhole whole)
    (hsign : sign ∈ [[], ['-']]) (rest : List Char) :
    dropSign ['-'] (sign ++ (whole ++ rest)) = whole ++ rest :=
  h.isDigits.dropSign_append (List.forall_mem_singleton.mpr rfl) hsign rest

theorem IsDigits.dropSign_exponent {sign ds : List Char} (hds : IsDigits ds)
    (hsign : sign ∈ [[], ['+'], ['-']]) : dropSign ['+', '-'] (sign ++ ds) = ds := by
  have hsigns : ∀ c ∈ ['+', '-'], c.isDigit = false := by simp
  simpa using hds.dropSign_append hsigns hsign []

/-! ### What is read is spelled -/

theorem of_readDigits {cs ds rest : List Char} (h : readDigits cs = some (ds, rest)) :
    cs = ds ++ rest ∧ IsDigits ds := by
  unfold readDigits at h
  split at h
  · cases h
  · rename_i d ds' htake
    cases h
    rw [← htake]
    refine ⟨List.takeWhile_append_dropWhile.symm, ?_, ?_⟩
    · rw [htake]
      exact List.cons_ne_nil d ds'
    · intro c hc
      exact List.all_eq_true.mp List.all_takeWhile c hc

theorem of_readWhole {cs whole rest : List Char} (h : readWhole cs = some (whole, rest)) :
    cs = whole ++ rest ∧ IsWhole whole := by
  unfold readWhole at h
  split at h
  · cases h
    exact ⟨rfl, Or.inl rfl⟩
  · rename_i hzero
    obtain ⟨rfl, hdigits⟩ := of_readDigits h
    refine ⟨rfl, Or.inr ⟨hdigits, ?_⟩⟩
    intro hhead
    obtain ⟨ds, rfl⟩ := List.head?_eq_some_iff.mp hhead
    exact hzero (ds ++ rest) rfl

theorem of_readFraction {cs ds rest : List Char} (h : readFraction cs = some (ds, rest)) :
    ∃ fraction, cs = fraction ++ rest ∧ IsFraction fraction := by
  unfold readFraction at h
  split at h
  · obtain ⟨rfl, hdigits⟩ := of_readDigits h
    exact ⟨'.' :: ds, rfl, Or.inr ⟨ds, rfl, hdigits⟩⟩
  · cases h
    exact ⟨[], rfl, Or.inl rfl⟩

theorem readExponent_cons {mark : Char} (h : mark = 'e' ∨ mark = 'E') (cs : List Char) :
    readExponent (mark :: cs) = (readDigits (dropSign ['+', '-'] cs)).map
      fun read => (some ((readExponentSign cs).1, read.1), read.2) := by
  rw [← snd_readExponentSign]
  exact if_pos h

theorem of_readExponent {cs rest : List Char} {e : Option (Bool × List Char)}
    (h : readExponent cs = some (e, rest)) :
    ∃ exponent, cs = exponent ++ rest ∧ IsExponent exponent := by
  cases cs with
  | nil =>
      cases h
      exact ⟨[], rfl, Or.inl rfl⟩
  | cons mark cs =>
      by_cases hmark : mark = 'e' ∨ mark = 'E'
      · rw [readExponent_cons hmark] at h
        obtain ⟨⟨ds, rest'⟩, hread, heq⟩ := Option.map_eq_some_iff.mp h
        obtain ⟨hcs, hdigits⟩ := of_readDigits hread
        obtain ⟨sign, hmem, hsign⟩ := exists_dropSign ['+', '-'] cs
        have hmark' : mark ∈ ['e', 'E'] := by simpa using hmark
        refine ⟨mark :: (sign ++ ds), ?_, Or.inr ⟨mark, sign, ds, rfl, hmark', hmem, hdigits⟩⟩
        have hrest : rest' = rest := (Prod.mk.inj heq).2
        calc mark :: cs = mark :: (sign ++ dropSign ['+', '-'] cs) := congrArg _ hsign
          _ = mark :: (sign ++ ds) ++ rest := by rw [hcs, hrest]; simp
      · rw [readExponent, if_neg hmark] at h
        cases h
        exact ⟨[], rfl, Or.inl rfl⟩

theorem isSpelled_of_read {cs : List Char} {n : Numeral} (h : read cs = some (n, [])) :
    IsSpelled cs := by
  simp only [read, Option.bind_eq_bind, Option.bind_eq_some_iff, Option.pure_def, Option.some.injEq,
    Prod.mk.injEq] at h
  obtain ⟨⟨whole, cs₁⟩, hwhole, ⟨ds, cs₂⟩, hfraction, ⟨e, cs₃⟩, hexponent, -, rfl⟩ := h
  obtain ⟨sign, hmem, hsign⟩ := exists_dropSign ['-'] cs
  dsimp only at hfraction hexponent
  obtain ⟨hcs₁, hw⟩ := of_readWhole hwhole
  obtain ⟨fraction, hcs₂, hf⟩ := of_readFraction hfraction
  obtain ⟨exponent, hcs₃, he⟩ := of_readExponent hexponent
  refine ⟨sign, whole, fraction, exponent, ?_, hmem, hw, hf, he⟩
  calc cs = sign ++ (readSign cs).2 := by rw [snd_readSign]; exact hsign
    _ = sign ++ (whole ++ (fraction ++ exponent)) := by rw [hcs₁, hcs₂, hcs₃, List.append_nil]

/-! ### What is spelled is read -/

theorem IsExponent.mem_of_head? {cs : List Char} (h : IsExponent cs) {c : Char}
    (hc : cs.head? = some c) : c ∈ ['e', 'E'] := by
  rcases h with rfl | ⟨mark, sign, ds, rfl, hmark, -, -⟩
  · cases hc
  · obtain rfl := Option.some.inj hc
    exact hmark

/-- Behind the whole part there is a point, a mark or nothing. -/
theorem IsFraction.mem_of_head? {fraction exponent : List Char} (h : IsFraction fraction)
    (hexponent : IsExponent exponent) {c : Char} (hc : (fraction ++ exponent).head? = some c) :
    c ∈ ['.', 'e', 'E'] := by
  rcases h with rfl | ⟨ds, rfl, -⟩
  · exact List.mem_cons_of_mem _ (hexponent.mem_of_head? hc)
  · obtain rfl := Option.some.inj hc
    exact List.mem_cons_self

/-- None of the characters that parts start with is a digit. -/
theorem not_isDigit_of_mem {c : Char} (h : c ∈ ['.', 'e', 'E']) : c.isDigit = false := by
  simp only [List.mem_cons, List.not_mem_nil, or_false] at h
  rcases h with rfl | rfl | rfl <;> rfl

theorem IsDigits.readDigits_eq {ds : List Char} (h : IsDigits ds) :
    readDigits ds = some (ds, []) := by
  have hstop : ∀ c, ([] : List Char).head? = some c → c.isDigit = false := by simp
  simpa using readDigits_append h.1 h.2 hstop

theorem IsWhole.readWhole_append {whole rest : List Char} (h : IsWhole whole)
    (hrest : ∀ c, rest.head? = some c → c.isDigit = false) :
    readWhole (whole ++ rest) = some (whole, rest) := by
  rcases h with rfl | ⟨⟨hne, hdigits⟩, hzero⟩
  · rfl
  · unfold readWhole
    split
    · rename_i heq
      rw [← List.head?_append_of_ne_nil whole hne, heq] at hzero
      exact absurd rfl hzero
    · exact readDigits_append hne hdigits hrest

theorem IsFraction.exists_readFraction {fraction rest : List Char} (h : IsFraction fraction)
    (hrest : ∀ c, rest.head? = some c → c ∈ ['e', 'E']) :
    ∃ ds, readFraction (fraction ++ rest) = some (ds, rest) := by
  rcases h with rfl | ⟨ds, rfl, hne, hdigits⟩
  · refine ⟨[], ?_⟩
    rw [List.nil_append]
    unfold readFraction
    split
    · exact absurd (hrest '.' rfl) (by decide)
    · rfl
  · refine ⟨ds, ?_⟩
    show readDigits (ds ++ rest) = some (ds, rest)
    apply readDigits_append hne hdigits
    intro c hc
    exact not_isDigit_of_mem (List.mem_cons_of_mem _ (hrest c hc))

theorem IsExponent.exists_readExponent {cs : List Char} (h : IsExponent cs) :
    ∃ e, readExponent cs = some (e, []) := by
  rcases h with rfl | ⟨mark, sign, ds, rfl, hmark, hsign, hds⟩
  · exact ⟨none, rfl⟩
  · have hmark' : mark = 'e' ∨ mark = 'E' := by simpa using hmark
    refine ⟨some ((readExponentSign (sign ++ ds)).1, ds), ?_⟩
    rw [readExponent_cons hmark', hds.dropSign_exponent hsign, hds.readDigits_eq]
    rfl

theorem IsSpelled.exists_read {cs : List Char} (h : IsSpelled cs) :
    ∃ n, read cs = some (n, []) := by
  obtain ⟨sign, whole, fraction, exponent, rfl, hsign, hwhole, hfraction, hexponent⟩ := h
  have hstop : ∀ c, (fraction ++ exponent).head? = some c → c.isDigit = false := by
    intro c hc
    exact not_isDigit_of_mem (hfraction.mem_of_head? hexponent hc)
  obtain ⟨fractionDigits, hreadFraction⟩ :=
    hfraction.exists_readFraction fun c hc => hexponent.mem_of_head? hc
  obtain ⟨e, hreadExponent⟩ := hexponent.exists_readExponent
  refine ⟨⟨(readSign (sign ++ (whole ++ (fraction ++ exponent)))).1, whole, fractionDigits, e⟩, ?_⟩
  simp only [read, snd_readSign, hwhole.dropSign_append hsign, hwhole.readWhole_append hstop,
    hreadFraction, hreadExponent, Option.bind_eq_bind, Option.bind_some, Option.pure_def]

theorem isDecimal_iff_exists_read (s : String) :
    isDecimal s = true ↔ ∃ n, read s.toList = some (n, []) := by
  unfold isDecimal parse?
  constructor
  · intro h
    split at h
    · rename_i n hread
      exact ⟨n, hread⟩
    · cases h
  · rintro ⟨n, hread⟩
    rw [hread]
    rfl

/-! ### Cutting -/

/-- What stands before the first character with a property, and what stands behind it if
there is one. -/
def cut (p : Char → Bool) (cs : List Char) : List Char × Option (List Char) :=
  (cs.takeWhile (!p ·), (cs.dropWhile (!p ·)).tail?)

/-- One digit or more, as a test. -/
def allDigits (cs : List Char) : Bool :=
  !cs.isEmpty && cs.all Char.isDigit

/-- The characters are a number, as told by cutting. -/
def isNumberByCuts (cs : List Char) : Bool :=
  let (mantissa, exponent) := cut (· ∈ ['e', 'E']) (dropSign ['-'] cs)
  let (whole, fraction) := cut (· == '.') mantissa
  allDigits whole && !(1 < whole.length && whole.head? == some '0') &&
    fraction.all allDigits && exponent.all (allDigits <| dropSign ['+', '-'] ·)

theorem allDigits_iff (cs : List Char) : allDigits cs = true ↔ IsDigits cs := by
  simp [allDigits, IsDigits]

/-- A cut takes nothing away but the character that it falls on. -/
theorem cut_cases (p : Char → Bool) (cs : List Char) :
    cut p cs = (cs, none) ∨
      ∃ front mark rest, cut p cs = (front, some rest) ∧ p mark = true ∧
        cs = front ++ mark :: rest := by
  have hcs : cs.takeWhile (!p ·) ++ cs.dropWhile (!p ·) = cs := List.takeWhile_append_dropWhile
  cases hdrop : cs.dropWhile (!p ·) with
  | nil =>
      rw [hdrop, List.append_nil] at hcs
      exact Or.inl (by rw [cut, hdrop, hcs]; rfl)
  | cons mark rest =>
      refine Or.inr ⟨cs.takeWhile (!p ·), mark, rest, by rw [cut, hdrop]; rfl, ?_, ?_⟩
      · have hhead := List.head?_dropWhile_not (!p ·) cs
        rw [hdrop] at hhead
        simpa using hhead
      · rw [← hdrop, hcs]

theorem cut_of_forall {p : Char → Bool} {cs : List Char} (h : ∀ c ∈ cs, p c = false) :
    cut p cs = (cs, none) := by
  have hnot : ∀ c ∈ cs, (!p c) = true := fun c hc => by rw [h c hc]; rfl
  rw [cut, List.takeWhile_eq_self_iff.mpr hnot, List.dropWhile_eq_nil_iff.mpr hnot]
  rfl

theorem cut_append {p : Char → Bool} {front : List Char} (h : ∀ c ∈ front, p c = false)
    {mark : Char} (hmark : p mark = true) (rest : List Char) :
    cut p (front ++ mark :: rest) = (front, some rest) := by
  have hnot : ∀ c ∈ front, (!p c) = true := fun c hc => by rw [h c hc]; rfl
  rw [cut, List.takeWhile_append_of_pos hnot, List.dropWhile_append_of_pos hnot]
  simp [hmark]

theorem isWhole_iff (cs : List Char) :
    IsWhole cs ↔ (allDigits cs && !(1 < cs.length && cs.head? == some '0')) = true := by
  rw [Bool.and_eq_true, allDigits_iff]
  constructor
  · intro h
    refine ⟨h.isDigits, ?_⟩
    rcases h with rfl | ⟨-, hzero⟩
    · rfl
    · simp [hzero]
  · rintro ⟨hdigits, hzero⟩
    by_cases hhead : cs.head? = some '0'
    · obtain ⟨ds, rfl⟩ := List.head?_eq_some_iff.mp hhead
      have hds : ds = [] := by simpa [List.length_pos_iff] using hzero
      exact Or.inl (by rw [hds])
    · exact Or.inr ⟨hdigits, hhead⟩

/-- What a cut at the first point leaves behind it is a fraction, if it is digits. -/
theorem exists_fraction {mantissa whole : List Char} {behind : Option (List Char)}
    (hcut : cut (· == '.') mantissa = (whole, behind)) (hdigits : behind.all allDigits = true) :
    ∃ fraction, mantissa = whole ++ fraction ∧ IsFraction fraction := by
  rcases cut_cases (· == '.') mantissa with hnone | ⟨front, mark, rest, hsome, hmark, hmantissa⟩
  · rw [hnone] at hcut
    cases hcut
    exact ⟨[], (List.append_nil _).symm, Or.inl rfl⟩
  · rw [hsome] at hcut
    cases hcut
    obtain rfl : mark = '.' := by simpa using hmark
    exact ⟨'.' :: rest, hmantissa, Or.inr ⟨rest, rfl, (allDigits_iff rest).mp hdigits⟩⟩

/-- What a cut at the first mark leaves behind it is an exponent, if it is digits after a
sign or none. -/
theorem exists_exponent {body mantissa : List Char} {behind : Option (List Char)}
    (hcut : cut (· ∈ ['e', 'E']) body = (mantissa, behind))
    (hdigits : behind.all (allDigits <| dropSign ['+', '-'] ·) = true) :
    ∃ exponent, body = mantissa ++ exponent ∧ IsExponent exponent := by
  rcases cut_cases (· ∈ ['e', 'E']) body with hnone | ⟨front, mark, rest, hsome, hmark, hbody⟩
  · rw [hnone] at hcut
    cases hcut
    exact ⟨[], (List.append_nil _).symm, Or.inl rfl⟩
  · rw [hsome] at hcut
    cases hcut
    have hds : IsDigits (dropSign ['+', '-'] rest) := (allDigits_iff _).mp hdigits
    have hmark' : mark ∈ ['e', 'E'] := by simpa using hmark
    obtain ⟨sign, hsign, hrest⟩ := exists_dropSign ['+', '-'] rest
    exact ⟨mark :: rest, hbody, Or.inr ⟨mark, sign, _, congrArg _ hrest, hmark', hsign, hds⟩⟩

theorem isSpelled_of_isNumberByCuts {cs : List Char} (h : isNumberByCuts cs = true) :
    IsSpelled cs := by
  unfold isNumberByCuts at h
  rcases hbody : cut (· ∈ ['e', 'E']) (dropSign ['-'] cs) with ⟨mantissa, exponent⟩
  rcases hmantissa : cut (· == '.') mantissa with ⟨whole, fraction⟩
  simp only [hbody, hmantissa] at h
  rw [Bool.and_eq_true, Bool.and_eq_true, ← isWhole_iff] at h
  obtain ⟨⟨hwhole, hfraction⟩, hexponent⟩ := h
  obtain ⟨exponent, hexp, hisExponent⟩ := exists_exponent hbody hexponent
  obtain ⟨fraction, hfrac, hisFraction⟩ := exists_fraction hmantissa hfraction
  obtain ⟨sign, hsign, hcs⟩ := exists_dropSign ['-'] cs
  refine ⟨sign, whole, fraction, exponent, ?_, hsign, hwhole, hisFraction, hisExponent⟩
  calc cs = sign ++ dropSign ['-'] cs := hcs
    _ = sign ++ (whole ++ (fraction ++ exponent)) := by rw [hexp, hfrac, List.append_assoc]

theorem IsFraction.cut_append {whole fraction : List Char} (h : IsFraction fraction)
    (hwhole : ∀ c ∈ whole, c ≠ '.') :
    ∃ behind, cut (· == '.') (whole ++ fraction) = (whole, behind) ∧
      behind.all allDigits = true := by
  have hnot : ∀ c ∈ whole, (c == '.') = false := by simpa using hwhole
  rcases h with rfl | ⟨ds, rfl, hds⟩
  · rw [List.append_nil]
    exact ⟨none, cut_of_forall hnot, rfl⟩
  · exact ⟨some ds, Numeral.cut_append hnot rfl ds, (allDigits_iff ds).mpr hds⟩

theorem IsExponent.cut_append {mantissa exponent : List Char} (h : IsExponent exponent)
    (hmantissa : ∀ c ∈ mantissa, c ∉ ['e', 'E']) :
    ∃ behind, cut (· ∈ ['e', 'E']) (mantissa ++ exponent) = (mantissa, behind) ∧
      behind.all (allDigits <| dropSign ['+', '-'] ·) = true := by
  have hnot : ∀ c ∈ mantissa, decide (c ∈ ['e', 'E']) = false := fun c hc =>
    decide_eq_false (hmantissa c hc)
  rcases h with rfl | ⟨mark, sign, ds, rfl, hmark, hsign, hds⟩
  · rw [List.append_nil]
    exact ⟨none, cut_of_forall hnot, rfl⟩
  · refine ⟨some (sign ++ ds), Numeral.cut_append hnot (decide_eq_true hmark) _, ?_⟩
    rw [Option.all_some, hds.dropSign_exponent hsign]
    exact (allDigits_iff ds).mpr hds

/-- Digits hold neither a point nor a mark. -/
theorem notMem_of_isDigit {c : Char} (h : c.isDigit = true) : c ∉ ['.', 'e', 'E'] := by
  intro hmem
  rw [not_isDigit_of_mem hmem] at h
  cases h

/-- Neither part before the exponent holds a mark. -/
theorem notMem_mantissa {whole fraction : List Char} (hwhole : IsWhole whole)
    (hfraction : IsFraction fraction) {c : Char} (hc : c ∈ whole ++ fraction) :
    c ∉ ['e', 'E'] := by
  have hdigit : ∀ {d : Char}, d.isDigit = true → d ∉ ['e', 'E'] := fun hd hmem =>
    notMem_of_isDigit hd (List.mem_cons_of_mem _ hmem)
  rcases List.mem_append.mp hc with hc | hc
  · exact hdigit (hwhole.isDigits.2 c hc)
  · rcases hfraction with rfl | ⟨ds, rfl, -, hds⟩
    · cases hc
    · rcases List.mem_cons.mp hc with rfl | hc
      · decide
      · exact hdigit (hds c hc)

theorem IsSpelled.isNumberByCuts {cs : List Char} (h : IsSpelled cs) :
    isNumberByCuts cs = true := by
  obtain ⟨sign, whole, fraction, exponent, rfl, hsign, hwhole, hfraction, hexponent⟩ := h
  have hbody : dropSign ['-'] (sign ++ (whole ++ (fraction ++ exponent)))
      = (whole ++ fraction) ++ exponent := by
    rw [List.append_assoc]
    exact hwhole.dropSign_append hsign _
  have hpoint : ∀ c ∈ whole, c ≠ '.' := by
    rintro c hc rfl
    exact absurd (hwhole.isDigits.2 _ hc) (by decide)
  obtain ⟨behindMark, hcutMark, hexponentDigits⟩ :=
    hexponent.cut_append fun c => notMem_mantissa hwhole hfraction
  obtain ⟨behindPoint, hcutPoint, hfractionDigits⟩ := hfraction.cut_append hpoint
  unfold Numeral.isNumberByCuts
  simp only [hbody, hcutMark, hcutPoint]
  rw [Bool.and_eq_true, Bool.and_eq_true, ← isWhole_iff]
  exact ⟨⟨hwhole, hfractionDigits⟩, hexponentDigits⟩

end FlowSuite.Numeral

namespace FlowSuite

/-- What is spelled as a number is one. -/
theorem isDecimal_of_isSpelled {s : String} (h : Numeral.IsSpelled s.toList) :
    isDecimal s = true :=
  (Numeral.isDecimal_iff_exists_read s).mpr h.exists_read

/-- **A text is a number exactly if it is spelled as one.**  Reading it from the left and
cutting it at its first mark and its first point both accept a minus sign or none, a whole
part without a superfluous zero, a fraction or none and an exponent or none, and no other
text. -/
theorem isDecimal_iff_isSpelled (s : String) :
    (isDecimal s = true ↔ Numeral.IsSpelled s.toList) ∧
      isDecimal s = Numeral.isNumberByCuts s.toList := by
  have hspelled : isDecimal s = true ↔ Numeral.IsSpelled s.toList := by
    refine ⟨fun h => ?_, isDecimal_of_isSpelled⟩
    obtain ⟨n, hread⟩ := (Numeral.isDecimal_iff_exists_read s).mp h
    exact Numeral.isSpelled_of_read hread
  refine ⟨hspelled, Bool.eq_iff_iff.mpr (hspelled.trans ?_)⟩
  exact ⟨Numeral.IsSpelled.isNumberByCuts, Numeral.isSpelled_of_isNumberByCuts⟩

end FlowSuite
