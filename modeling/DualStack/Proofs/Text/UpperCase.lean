import DualStack.Text.UpperCase
import Mathlib.Data.Nat.Bitwise

/-!
# Upper case stays upper case

What the mapping to upper case yields is in upper case: putting a text into upper case again changes
nothing (`upper_upper`). Every character has an upper-case form of at least one character
(`upperChar_ne_nil`). A character before the capital letters, such as one that has a meaning for the
layout of source text, comes from itself only (`eq_of_mem_upperChar`).

None of this is a matter of single letters. It rests on two facts about the tables as a whole: no
code point is both the image of one and listed with an image of its own
(`UpperCase.not_mem_sources`), and every image is a character that is not before the capital letters
(`UpperCase.bounds_of_mem_images`). The first one compares the two sets as numbers whose bits are
their elements, so that the tables are gone through once and not for all pairs of entries.
-/

set_option autoImplicit false
set_option relaxedAutoImplicit false

namespace DualStack.Text

namespace UpperCase

/-! ### The tables as sets of code points -/

/-- The code points of a stretch. -/
def Stretch.codes (stretch : Stretch) : List Nat :=
  (List.range ((stretch.last - stretch.first) / stretch.stride + 1)).map fun index ↦
    stretch.first + stretch.stride * index

/-- The code points that the tables list. -/
def sources : List Nat := expansions.map Prod.fst ++ stretches.flatMap Stretch.codes

/-- The code points that the tables list as images of others. -/
def images : List Nat :=
  expansions.flatMap Prod.snd ++ stretches.flatMap fun stretch ↦ stretch.codes.map stretch.map

/-- A set of numbers as a number: its bits are the elements. -/
def bits (numbers : List Nat) : Nat := numbers.foldr (fun number rest ↦ 1 <<< number ||| rest) 0

theorem testBit_bits (numbers : List Nat) (index : Nat) :
    (bits numbers).testBit index = decide (index ∈ numbers) := by
  induction numbers with
  | nil => simp [bits]
  | cons number numbers ih =>
    have hcons : bits (number :: numbers) = 2 ^ number ||| bits numbers := by
      simp [bits, Nat.one_shiftLeft]
    rw [hcons, Nat.testBit_or, ih, Nat.testBit_two_pow]
    simp [eq_comm]

theorem mem_codes_of_covers {stretch : Stretch} {code : Nat} (hcovers : stretch.covers code = true) :
    code ∈ stretch.codes := by
  obtain ⟨⟨hfirst, hlast⟩, hstride⟩ :
      (stretch.first ≤ code ∧ code ≤ stretch.last) ∧ (code - stretch.first) % stretch.stride = 0 := by
    simpa [Stretch.covers] using hcovers
  refine List.mem_map.mpr ⟨(code - stretch.first) / stretch.stride, List.mem_range.mpr ?_, ?_⟩
  · exact Nat.lt_succ_of_le (Nat.div_le_div_right (by omega))
  · have hparts := Nat.div_add_mod (code - stretch.first) stretch.stride
    omega

theorem disjoint_bits : bits sources &&& bits images = 0 := by decide +kernel

/-- No image is listed with an image of its own. -/
theorem not_mem_sources {image : Nat} (himage : image ∈ images) : image ∉ sources := by
  intro hsource
  have hbit : (bits sources &&& bits images).testBit image = true := by
    rw [Nat.testBit_and, testBit_bits, testBit_bits, decide_eq_true hsource, decide_eq_true himage]
    rfl
  rw [disjoint_bits, Nat.zero_testBit] at hbit
  exact Bool.false_ne_true hbit

/-- Every image is a character that is not before the capital letters. -/
theorem bounds_of_mem_images : ∀ image ∈ images, 0x41 ≤ image ∧ image.isValidChar := by
  decide +kernel

theorem ne_nil_of_mem_expansions : ∀ expansion ∈ expansions, expansion.2 ≠ [] := by decide +kernel

end UpperCase

open UpperCase

/-! ### Code points -/

/-- The Latin letters without a mark are a stretch. -/
theorem latin_mem_stretches : (⟨0x61, 0x7A, 1, 0x41⟩ : Stretch) ∈ stretches := List.mem_cons_self

/-- A code point on a stretch is listed, and so is its image. -/
theorem mem_of_covers {stretch : Stretch} {code : Nat} (hmem : stretch ∈ stretches)
    (hcovers : stretch.covers code = true) : code ∈ sources ∧ stretch.map code ∈ images := by
  have hcode := mem_codes_of_covers hcovers
  exact ⟨List.mem_append_right _ (List.mem_flatMap.mpr ⟨stretch, hmem, hcode⟩),
    List.mem_append_right _ (List.mem_flatMap.mpr ⟨stretch, hmem, List.mem_map_of_mem hcode⟩)⟩

theorem latin_covers {code : Nat} (hletter : 0x61 ≤ code ∧ code ≤ 0x7A) :
    (⟨0x61, 0x7A, 1, 0x41⟩ : Stretch).covers code = true := by
  simp [Stretch.covers, hletter, Nat.mod_one]

/-- A code point that is not listed is its own upper-case form. -/
theorem upperCode_of_not_mem {code : Nat} (hcode : code ∉ sources) : upperCode code = [code] := by
  have hexpansion : expansions.find? (fun expansion ↦ expansion.1 == code) = none := by
    refine List.find?_eq_none.mpr fun expansion hmem hsame ↦ hcode ?_
    exact List.mem_append_left _ (List.mem_map.mpr ⟨expansion, hmem, by simpa using hsame⟩)
  have hstretch (stretch : Stretch) (hmem : stretch ∈ stretches) :
      ¬ stretch.covers code = true := fun hcovers ↦ hcode (mem_of_covers hmem hcovers).1
  unfold upperCode
  split
  · have hletter : ¬ (0x61 ≤ code ∧ code ≤ 0x7A) := fun hletter ↦
      hstretch _ latin_mem_stretches (latin_covers hletter)
    simp [hletter]
  · rw [hexpansion, List.find?_eq_none.mpr hstretch]

/-- The upper-case form of a code point that is not its own is made of images. -/
theorem upperCode_eq_or (code : Nat) : upperCode code = [code] ∨
    upperCode code ≠ [] ∧ ∀ image ∈ upperCode code, image ∈ images := by
  unfold upperCode
  split
  · by_cases hletter : 0x61 ≤ code ∧ code ≤ 0x7A
    · have himage : 0x41 + (code - 0x61) ∈ images :=
        (mem_of_covers latin_mem_stretches (latin_covers hletter)).2
      have hdistance : 0x41 + (code - 0x61) = code - 0x20 := by omega
      exact .inr (by simpa [hletter, hdistance] using himage)
    · exact .inl (by simp [hletter])
  · split
    · next expansion hfind =>
      have hmem := List.mem_of_find?_eq_some hfind
      refine .inr ⟨ne_nil_of_mem_expansions expansion hmem, fun image himage ↦ ?_⟩
      exact List.mem_append_left _ (List.mem_flatMap.mpr ⟨expansion, hmem, himage⟩)
    · split
      · next stretch hfind =>
        have hcovers : stretch.covers code = true := by simpa using List.find?_some hfind
        have himage := (mem_of_covers (List.mem_of_find?_eq_some hfind) hcovers).2
        exact .inr (by simpa using himage)
      · exact .inl rfl

/-- The code points of an upper-case form are in upper case. -/
theorem upperCode_of_mem {code image : Nat} (himage : image ∈ upperCode code) :
    upperCode image = [image] := by
  rcases upperCode_eq_or code with hself | ⟨-, himages⟩
  · obtain rfl : image = code := by simpa [hself] using himage
    exact hself
  · exact upperCode_of_not_mem (not_mem_sources (himages image himage))

/-! ### Characters -/

variable {character image : Char}

theorem upperChar_ne_nil (character : Char) : upperChar character ≠ [] := by
  rcases upperCode_eq_or character.toNat with hself | ⟨hsome, -⟩
  · simp [upperChar, hself]
  · simpa [upperChar] using hsome

/-- The characters of an upper-case form have the code points of that form. -/
theorem toNat_mem_upperCode (himage : image ∈ upperChar character) :
    image.toNat ∈ upperCode character.toNat := by
  obtain ⟨code, hcode, rfl⟩ := List.mem_map.mp himage
  have hvalid : code.isValidChar := by
    rcases upperCode_eq_or character.toNat with hself | ⟨-, himages⟩
    · obtain rfl : code = character.toNat := by simpa [hself] using hcode
      exact character.valid
    · exact (bounds_of_mem_images code (himages code hcode)).2
  have hsame : (Char.ofNat code).toNat = code := by
    rw [Char.ofNat, dif_pos hvalid]
    rfl
  rwa [hsame]

/-- The characters of an upper-case form are in upper case. -/
theorem upperChar_of_mem (himage : image ∈ upperChar character) : upperChar image = [image] := by
  rw [upperChar, upperCode_of_mem (toNat_mem_upperCode himage), List.map_singleton,
    Char.ofNat_toNat]

/-- What comes before the capital letters comes from itself only. -/
theorem eq_of_mem_upperChar (himage : image ∈ upperChar character) (hbefore : image.toNat < 0x41) :
    character = image := by
  have hcode := toNat_mem_upperCode himage
  rcases upperCode_eq_or character.toNat with hself | ⟨-, himages⟩
  · have hsame : image.toNat = character.toNat := by simpa [hself] using hcode
    exact Char.toNat_inj.mp hsame.symm
  · have hbound := (bounds_of_mem_images _ (himages _ hcode)).1
    omega

/-! ### Texts -/

/-- A text in upper case has the characters of the upper-case forms. -/
theorem mem_upper {text : List Char} :
    image ∈ upper text ↔ ∃ character ∈ text, image ∈ upperChar character := List.mem_flatMap

theorem upper_ne_nil {text : List Char} (hsome : text ≠ []) : upper text ≠ [] := by
  cases text with
  | nil => exact absurd rfl hsome
  | cons first rest =>
    rw [upper, List.flatMap_cons]
    exact List.append_ne_nil_of_left_ne_nil (upperChar_ne_nil first) _

/-- A text in upper case stays as it is when it is put into upper case. -/
theorem upper_upper (text : List Char) : upper (upper text) = upper text := by
  refine upper_eq_self fun image himage ↦ ?_
  obtain ⟨character, -, hmem⟩ := mem_upper.mp himage
  exact upperChar_of_mem hmem

end DualStack.Text
