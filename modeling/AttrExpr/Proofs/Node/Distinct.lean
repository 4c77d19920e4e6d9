import AttrExpr.Proofs.Float.Extended
import AttrExpr.Proofs.Node.Literal

/-!
# Literals Apart

Different numbers are written differently, and what is read is a number.

Numbers that are read back from their literals are told apart by reading. What
is left are the floats that are not written out. With an exponent the digits
are what stands in front of the letter, point aside, and the exponent gives the
power of the last of them. So the text gives the shortest decimal, and that
reads back as the magnitude even where the text does not.

No text writes what is not a number. A decimal is zero, or it is read by at
most one operation on two forms that are neither zero nor infinite. Such an
operation has a result, which may be too large or too small to be stored but is
not stored as anything else.

## Theorems

* `Binary64.isNaN_packed`: Nothing else is packed as what is not a number.
* `Decimal.isNaN_toFloat`: A decimal reads as a number.
* `Decimal.integerText_injective`: Whole numbers are told apart by their texts.
* `Decimal.Layout.scientific_injective`: So are decimals with an exponent.
* `Number.literal_injective`: So are all numbers, however they are written.
-/

namespace AttrExpr

open Parse

/-! ## What is read is a number -/

namespace Binary64

open Float.Model Float.Model.UnpackedFloat

theorem isNaN_eq (x : Float) : x.isNaN = (unpacked x).isNaN := rfl

/-- There is one float only that is not a number: packing keeps one of the bit
    patterns for it, so the others do not occur. -/
theorem eq_of_isNaN {x y : Float} (hx : x.isNaN = true) (hy : y.isNaN = true) : x = y := by
  have hform : ∀ z : Float, z.isNaN = true → unpacked z = .notANumber := by
    intro z hz
    rw [isNaN_eq] at hz
    cases hunpacked : unpacked z with
    | notANumber => rfl
    | infinity | zero | finite =>
        rw [hunpacked] at hz
        cases hz
  exact unpacked_injective ((hform x hx).trans (hform y hy).symm)

/-- The bits a finite form is packed to may be those of an infinite one, but
    they have the largest exponent then and no fraction. What is not a number
    has a fraction besides the largest exponent. -/
theorem isNaN_packed_finite (sign : Sign) {significand : Nat} (power : Int)
    (hpos : 0 < significand) : (packed (.finite sign significand power hpos)).isNaN = false := by
  have hunpacks := unpacks
    (UnpackedFloat.pack Format.binary64 (.finite sign significand power hpos))
  have hstored : exponent (UnpackedFloat.pack Format.binary64
        (.finite sign significand power hpos)) = 2047 →
      fraction (UnpackedFloat.pack Format.binary64 (.finite sign significand power hpos)) = 0 := by
    unfold UnpackedFloat.pack
    rw [toNat_biased]
    dsimp only
    -- Too large an exponent gives infinity; any other is stored as it is.
    split
    · intro _
      rw [packedInfinity, fraction_packComponents]
      rfl
    · rename_i hfits
      rw [show 2 ^ Format.binary64.exponentBits = 2048 from rfl] at hfits
      split
      · intro hexponent
        rw [exponent_packComponents, toNat_ofNat_exponent (by omega)] at hexponent
        omega
      · intro hexponent
        rw [exponent_packComponents] at hexponent
        cases hexponent
  rw [isNaN_eq]
  have hform : UnpackedFloat.unpack Format.binary64 (UnpackedFloat.pack Format.binary64
      (.finite sign significand power hpos)) =
        unpacked (packed (.finite sign significand power hpos)) := rfl
  rw [hform] at hunpacks
  generalize unpacked (packed (.finite sign significand power hpos)) = u at hunpacks
  cases hunpacks with
  | notANumber hexponent hfraction => exact absurd (hstored hexponent) hfraction
  | infinity | zero | least | full => rfl

/-- Nothing else is packed as what is not a number. So an operation gives a
    number if the form it computes is one, and forms are easily looked at. -/
theorem isNaN_packed {u : UnpackedFloat} (hu : u.isNaN = false) : (packed u).isNaN = false := by
  cases u with
  | notANumber => cases hu
  | infinity sign =>
      rw [isNaN_eq, unpacked_packed (u := .infinity sign) trivial]
      exact hu
  | zero sign =>
      rw [isNaN_eq, unpacked_packed (u := .zero sign) trivial]
      exact hu
  | finite sign significand power hpos => exact isNaN_packed_finite sign power hpos

theorem isNaN_roundWithAccuracy (sign : Sign) (m : Nat) (e : Int) (accuracy : Accuracy) :
    (roundWithAccuracy Format.binary64 sign m e accuracy).isNaN = false := by
  simp only [roundWithAccuracy]
  split
  · rfl
  · rfl

/-- Reading a decimal in general is a rounding, or it gives zero or infinity
    without one where the power is out of all range. -/
theorem isNaN_ofScientific (c : Nat) (k : Int) :
    (UnpackedFloat.ofScientific Format.binary64 c k).isNaN = false := by
  unfold UnpackedFloat.ofScientific
  split
  · rfl
  · split
    · rfl
    · split
      · rfl
      · split
        · exact isNaN_roundWithAccuracy _ _ _ _
        · exact isNaN_roundWithAccuracy _ _ _ _

section

variable {x y : Float} {s t : Sign} {m n : Nat} {d e : Int} {hm : 0 < m} {hn : 0 < n}

/-- A product of two finite floats that are not zero is a number. -/
theorem isNaN_mul (hx : unpacked x = .finite s m d hm) (hy : unpacked y = .finite t n e hn) :
    (x * y).isNaN = false := by
  refine isNaN_packed (u := UnpackedFloat.mul Format.binary64 (unpacked x) (unpacked y)) ?_
  rw [hx, hy]
  exact isNaN_roundWithAccuracy _ _ _ _

theorem isNaN_div (hx : unpacked x = .finite s m d hm) (hy : unpacked y = .finite t n e hn) :
    (x / y).isNaN = false := by
  refine isNaN_packed (u := UnpackedFloat.div Format.binary64 (unpacked x) (unpacked y)) ?_
  rw [hx, hy]
  exact isNaN_roundWithAccuracy _ _ _ _

end

/-- The negative of a number is a number. -/
theorem isNaN_neg {x : Float} (hx : x.isNaN = false) : (-x).isNaN = false := by
  rw [isNaN_eq] at hx
  rw [isNaN_eq, unpacked_neg]
  cases hform : unpacked x with
  | notANumber =>
      rw [hform] at hx
      cases hx
  | infinity sign | zero sign | finite sign => rfl

/-- A number equals itself, as the comparison of floats has it. -/
theorem beq_self {x : Float} (hx : x.isNaN = false) : (x == x) = true := by
  rw [isNaN_eq] at hx
  rw [beq_iff_related]
  cases hform : unpacked x with
  | notANumber =>
      rw [hform] at hx
      cases hx
  | infinity sign | zero sign | finite sign =>
      rw [Related, hform]
      cases sign with
      | positive => exact ⟨_, _, rfl, rfl, rfl⟩
      | negative => exact ⟨_, _, rfl, rfl, rfl⟩

end Binary64

namespace Decimal

open Binary64

/-- A decimal reads as a number, which may be infinite. Zero is a case of its
    own, since zero times or over anything need not be a number. -/
theorem isNaN_toFloat (d : Decimal) : d.toFloat.isNaN = false := by
  by_cases hzero : d.normalize.coefficient = 0
  · have hread := unpacked_toFloat_of_zero hzero
    rw [toFloat_normalize] at hread
    rw [isNaN_eq, hread]
    rfl
  · unfold toFloat Float.ofScientific
    dsimp only
    split
    · -- A small one is read by one operation on two floats that are not zero.
      rename_i hsmall
      rcases unpacked_toFloat (Nat.pos_of_ne_zero hzero) hsmall.1 with ⟨m, e, hm, hform, _⟩
      rcases unpacked_powersOfTen (Nat.lt_succ_of_le hsmall.2) with ⟨n, k, hn, hten, _⟩
      split
      · exact isNaN_div hform hten
      · exact isNaN_mul hform hten
    · exact isNaN_packed (isNaN_ofScientific _ _)

end Decimal

namespace Number

/-- What a token writes equals itself, since no token writes what is not a
    number. -/
theorem same_self_of_numeral {token : List Char} {n : Number} (h : Numeral token n) :
    n.same n = true := by
  cases h with
  | integer => exact beq_self_eq_true _
  | @float negative whole fraction =>
      have hread := Decimal.isNaN_toFloat (Decimal.ofDigits whole fraction)
      refine Binary64.beq_self ?_
      split
      · exact Binary64.isNaN_neg hread
      · exact hread

end Number

/-! ## Whole numbers -/

namespace Parse

/-- A sign is told apart from what cannot be one. It is used with digits behind
    the sign, and with the words for infinite floats. -/
theorem signText_append_inj {a b : Bool} {as bs : List Char} (has : as.head? ≠ some '-')
    (hbs : bs.head? ≠ some '-') (h : signText a ++ as = signText b ++ bs) : a = b ∧ as = bs := by
  cases a with
  | false =>
      cases b with
      | false => exact ⟨rfl, h⟩
      | true => exact absurd (congrArg List.head? h) has
  | true =>
      cases b with
      | false => exact absurd (congrArg List.head? h.symm) hbs
      | true => exact ⟨rfl, (List.cons.inj h).2⟩

theorem Digits.head?_ne {whole : List Char} (rest : List Char) (h : Digits whole) (hne : whole ≠ [])
    {c : Char} (hc : c.isDigit = false) : (whole ++ rest).head? ≠ some c := by
  rcases h.head rest hne with ⟨d, hd, hdigit⟩
  rw [hd]
  rintro ⟨⟩
  rw [hdigit] at hc
  cases hc

/-- Numbers are told apart by their decimal digits, since these can be read
    back. -/
theorem toDigits_ten_injective {m n : Nat} (h : Nat.toDigits 10 m = Nat.toDigits 10 n) : m = n := by
  have hread := congrArg (fun digits => Nat.ofDigitChars 10 digits 0) h
  rwa [Nat.ofDigitChars_ten_toDigits, Nat.ofDigitChars_ten_toDigits] at hread

end Parse

namespace Decimal

/-- Whole numbers are told apart by their texts. -/
theorem integerText_injective {m n : Int} (h : integerText m = integerText n) : m = n := by
  have hhead : ∀ k : Int, (Nat.toDigits 10 k.natAbs).head? ≠ some '-' := by
    intro k
    have hfirst := (digits_toDigits k.natAbs).head?_ne [] Nat.toDigits_ne_nil (c := '-') rfl
    rwa [List.append_nil] at hfirst
  have htext := congrArg String.toList h
  rw [toList_integerText, toList_integerText] at htext
  have hparts := signText_append_inj (hhead m) (hhead n) htext
  have hmagnitude := toDigits_ten_injective hparts.2
  have hsign := decide_eq_decide.mp hparts.1
  omega

/-! ## Numbers with an exponent -/

namespace Layout

/-- In front of the exponent stand the digits, with or without a point. Taking
    the point away gives the digits in both cases, so no case is left of
    them. -/
theorem scientific_eq (d : Decimal) : ∃ mantissa,
    scientific d = mantissa ++ 'e' :: (integerText (lead d)).toList ∧
      mantissa.filter (· ≠ '.') = d.digits ∧ ∀ c ∈ mantissa, (c != 'e') = true := by
  have hdigits : Digits d.digits := digits_toDigits d.coefficient
  -- A digit is neither the point, which is taken away, nor the letter.
  have hkept : ∀ digits, Digits digits → digits.filter (· ≠ '.') = digits := by
    intro digits h
    refine List.filter_eq_self.mpr fun c hc => decide_eq_true ?_
    rintro rfl
    cases h '.' hc
  have hletter : ∀ digits, Digits digits → ∀ c ∈ digits, (c != 'e') = true := by
    intro digits h c hc
    refine bne_iff_ne.mpr ?_
    rintro rfl
    cases h 'e' hc
  simp only [scientific]
  split
  · rename_i first second rest hform
    rw [hform] at hdigits
    have hparts := List.forall_mem_cons.mp hdigits
    have hfirst : Digits [first] := List.forall_mem_singleton.mpr hparts.1
    have hfilter : ([first] ++ '.' :: second :: rest).filter (· ≠ '.') = d.digits := by
      rw [List.filter_append, hkept _ hfirst, List.filter_cons_of_neg (by decide),
        hkept _ hparts.2, hform]
      rfl
    have hnone : ∀ c ∈ [first] ++ '.' :: second :: rest, (c != 'e') = true :=
      List.forall_mem_append.mpr
        ⟨hletter _ hfirst, List.forall_mem_cons.mpr ⟨rfl, hletter _ hparts.2⟩⟩
    exact ⟨[first] ++ '.' :: second :: rest, rfl, hfilter, hnone⟩
  · exact ⟨d.digits, rfl, hkept _ hdigits, hletter _ hdigits⟩

/-- A decimal with an exponent begins with a digit. -/
theorem scientific_head?_ne (d : Decimal) {c : Char} (hc : c.isDigit = false) :
    (scientific d).head? ≠ some c := by
  rcases scientific_cases d with ⟨whole, _, _, htext, hwhole, hne, _⟩
  rw [htext]
  exact hwhole.head?_ne _ hne hc

/-- Decimals with an exponent are told apart by their texts. The coefficient is
    in the digits; the exponent written is that of the leading digit, and the
    number of digits makes it the exponent of the last one. -/
theorem scientific_injective {d d' : Decimal} (h : scientific d = scientific d') : d = d' := by
  rcases scientific_eq d with ⟨mantissa, htext, hdigits, hletter⟩
  rcases scientific_eq d' with ⟨mantissa', htext', hdigits', hletter'⟩
  rw [htext, htext'] at h
  -- The letter is where the digits end, and the exponent is behind it.
  have hparts := cut_inj rfl hletter hletter' h
  have hsame : d.digits = d'.digits := by rw [← hdigits, hparts.1, hdigits']
  have hlead : lead d = lead d' :=
    integerText_injective (String.toList_inj.mp hparts.2)
  have hcoefficient : d.coefficient = d'.coefficient := toDigits_ten_injective hsame
  have hexponent : d.exponent = d'.exponent := by
    rw [lead, lead, hsame] at hlead
    omega
  cases d
  cases d'
  exact congrArg₂ Decimal.mk hcoefficient hexponent

end Layout

end Decimal

/-! ## Literals -/

namespace Number

open Decimal

/-- The texts of the magnitudes that are not written out. What is not a number
    has no magnitude, and is looked at by itself. -/
inductive Unwritten (x : Float) : List Char → Prop
  | infinite (hx : x.isInf = true) : Unwritten x ['i', 'n', 'f']
  | scientific (hx : x.isFinite = true) : Unwritten x (Layout.scientific (shortest x.abs))

theorem Unwritten.head?_ne {x : Float} {text : List Char} (h : Unwritten x text) {c : Char}
    (hc : c.isDigit = false) (hletter : c ≠ 'i') : text.head? ≠ some c := by
  cases h with
  | infinite => exact fun hhead => hletter (Option.some.inj hhead).symm
  | scientific => exact Layout.scientific_head?_ne _ hc

/-- Magnitudes that are not written out are told apart by their texts. A finite
    one is what its shortest decimal reads as, though the text does not read. -/
theorem Unwritten.abs_eq {x y : Float} {text : List Char} (hx : Unwritten x text)
    (hy : Unwritten y text) : x.abs = y.abs := by
  -- An infinite magnitude is a word, and any other begins with a digit.
  have hword : ∀ d : Decimal, Layout.scientific d ≠ ['i', 'n', 'f'] := by
    intro d hd
    refine Layout.scientific_head?_ne d (c := 'i') rfl ?_
    rw [hd]
    rfl
  have hinfinite : ∀ z : Float, z.isInf = true → Binary64.unpacked z.abs = .infinity .positive := by
    intro z hz
    have hform : (Binary64.unpacked z).isInf = true := hz
    rw [Binary64.unpacked_abs]
    cases hunpacked : Binary64.unpacked z with
    | infinity sign => rfl
    | notANumber | zero | finite =>
        rw [hunpacked] at hform
        cases hform
  generalize hother : text = other at hy
  cases hx with
  | infinite hx =>
      cases hy with
      | infinite hy =>
          exact Binary64.unpacked_injective ((hinfinite x hx).trans (hinfinite y hy).symm)
      | scientific => exact absurd hother.symm (hword _)
  | scientific hx =>
      cases hy with
      | infinite => exact absurd hother (hword _)
      | scientific hy =>
          rw [← toFloat_shortest_abs hx, ← toFloat_shortest_abs hy,
            Layout.scientific_injective hother]

/-- A number that is not written out is a magnitude under its sign. -/
theorem exists_unwritten {x : Float} (hnumber : x.isNaN = false) (hx : ¬ Writable (.float x)) :
    ∃ text, (literal (.float x)).toList = signText (Layout.isNegative x) ++ text ∧
      Unwritten x text := by
  cases hinf : x.isInf with
  | true =>
      refine ⟨_, ?_, Unwritten.infinite hinf⟩
      simp only [literal, Layout.float, hnumber, hinf, Bool.false_eq_true, if_false, if_true,
        String.toList_ofList]
      cases Layout.isNegative x with
      | false => rfl
      | true => rfl
  | false =>
      -- A finite float that is not written out is beyond the limits of the layout.
      have hfinite := Binary64.isFinite_of_isNaN_isInf hnumber hinf
      have hpositional : ¬ Layout.literal.isPositional (Layout.lead (shortest x.abs)) = true :=
        fun h => hx ⟨hfinite, (isPositional_shortest_iff hfinite).mp h⟩
      refine ⟨_, ?_, Unwritten.scientific hfinite⟩
      rw [literal, toList_float hfinite, Layout.decimal, if_neg hpositional]

/-- What is not a number has a text of its own, without a sign. -/
theorem literal_of_isNaN {x : Float} (hx : x.isNaN = true) : literal (.float x) = "NaN" := by
  simp only [literal, Layout.float, hx, if_true]

/-- No number that is not written out is written like what is not a number. -/
theorem literal_ne_of_isNaN {x y : Float} (hx : x.isNaN = true) (hnumber : y.isNaN = false)
    (hy : ¬ Writable (.float y)) : literal (.float x) ≠ literal (.float y) := by
  intro h
  rcases exists_unwritten hnumber hy with ⟨text, htext, hunwritten⟩
  rw [← h, literal_of_isNaN hx] at htext
  have hhead := congrArg List.head? htext
  -- The name begins with a letter, which is no sign and begins no magnitude.
  cases hsign : Layout.isNegative y with
  | true =>
      rw [hsign] at hhead
      cases hhead
  | false =>
      rw [hsign] at hhead
      exact hunwritten.head?_ne rfl (by decide) hhead.symm

/-- Floats that are not written out are told apart by their literals: both are
    not numbers, or both are a sign and a magnitude. -/
theorem float_eq_of_literal_eq {x y : Float} (hx : ¬ Writable (.float x))
    (hy : ¬ Writable (.float y)) (h : literal (.float x) = literal (.float y)) : x = y := by
  cases hnan : x.isNaN with
  | true =>
      cases hnan' : y.isNaN with
      | true => exact Binary64.eq_of_isNaN hnan hnan'
      | false => exact absurd h (literal_ne_of_isNaN hnan hnan' hy)
  | false =>
      cases hnan' : y.isNaN with
      | true => exact absurd h.symm (literal_ne_of_isNaN hnan' hnan hx)
      | false =>
          rcases exists_unwritten hnan hx with ⟨text, htext, hunwritten⟩
          rcases exists_unwritten hnan' hy with ⟨text', htext', hunwritten'⟩
          rw [h, htext'] at htext
          -- No magnitude begins with a minus sign, so the signs come apart.
          have hparts := signText_append_inj (hunwritten'.head?_ne rfl (by decide))
            (hunwritten.head?_ne rfl (by decide)) htext
          rw [hparts.2] at hunwritten'
          -- The sign and the magnitude are the number.
          rw [← Binary64.neg_abs_eq hnan, ← Binary64.neg_abs_eq hnan', hparts.1,
            hunwritten.abs_eq hunwritten']

/-- A number that is not writable is not written as one that is: its literal is
    no number token. -/
theorem not_numeral_literal {n m : Number} (hn : ¬ n.Writable) : ¬ Numeral n.literal.toList m := by
  intro hnumeral
  rcases literal_of_not_writable hn with hsymbol | hbad
  · exact absurd hnumeral.startsNumber (Bool.eq_false_iff.mp hsymbol.startsNumber)
  · rcases hbad.bad with ⟨bad, hread⟩
    rw [readNumber_of_numeral hnumeral] at hread
    cases hread

/-- Numbers are told apart by their literals. Two that read back are told apart
    by reading; of two of which one does, only one literal is a number token. -/
theorem literal_injective {m n : Number} (h : m.literal = n.literal) : m = n := by
  by_cases hm : m.Writable
  · have hnumeral := numeral_literal hm
    by_cases hn : n.Writable
    · -- One token reads as one number.
      have hread := readNumber_of_numeral hnumeral
      rw [h, readNumber_of_numeral (numeral_literal hn)] at hread
      exact (Except.ok.inj hread).symm
    · rw [h] at hnumeral
      exact absurd hnumeral (not_numeral_literal hn)
  · by_cases hn : n.Writable
    · have hnumeral := numeral_literal hn
      rw [← h] at hnumeral
      exact absurd hnumeral (not_numeral_literal hm)
    · -- Every integer is writable, so both are floats.
      cases m with
      | int => exact absurd trivial hm
      | float x =>
          cases n with
          | int => exact absurd trivial hn
          | float y => exact congrArg float (float_eq_of_literal_eq hm hn h)

end Number

end AttrExpr
