/-
Texts that are read in portions.

The decoder takes one byte after another and refuses the first one that cannot stand where it does.
From between two characters, the bytes of a character take it to between two characters again, with
this character added; and no other bytes do, since the bounds of each byte leave exactly the code
points that have an encoding of its length.  So a file is read as a whole exactly if it is the
encoding of a text, wherever its portions begin.  Of any other file, the text is read whose encoding
fills the portions before the one with the byte that is refused.

Main definitions:

* `Geofence.Text.Spells` — the bytes of a code point.

Main results:

* `Geofence.Text.spells_utf8EncodeChar`, `Geofence.Text.Spells.utf8EncodeChar_eq` — the bytes of a
  character spell its code point;
* `Geofence.Text.Spells.foldlM_feed`, `Geofence.Text.Decoder.exists_spells_of_feed` — they are what
  the decoder takes for a character;
* `Geofence.Text.Extract.ofBytes_eq_iff` — the files that are read as a whole;
* `Geofence.Text.Extract.prefix_text_ofBytes` — what is read of any other file.
-/

import Geofence.Text.Decoder
import Mathlib

set_option relaxedAutoImplicit false
set_option autoImplicit false

namespace Geofence.Text

/-! ### Code points and their bytes -/

/-- The byte is a later one of some character. -/
def IsLater (b : UInt8) : Prop := 0x80 ≤ b.toNat ∧ b.toNat ≤ 0xbf

/-- The bytes spell a code point.  It has no shorter spelling, which shows at the first two bytes, as
do the halves of surrogate pairs and what is no code point. -/
inductive Spells : ℕ → List UInt8 → Prop
  | one {a : UInt8} (ha : a.toNat < 0x80) : Spells a.toNat [a]
  | two {a b : UInt8} (ha : 0xc2 ≤ a.toNat ∧ a.toNat < 0xe0) (hb : IsLater b) :
      Spells ((a.toNat - 0xc0) * 64 + (b.toNat - 0x80)) [a, b]
  | three {a b c : UInt8} {w : ℕ} (hw : w = (a.toNat - 0xe0) * 64 + (b.toNat - 0x80))
      (ha : 0xe0 ≤ a.toNat ∧ a.toNat < 0xf0) (hb : IsLater b) (hc : IsLater c) (long : 0x20 ≤ w)
      (half : w / 0x20 ≠ 0x1b) : Spells (w * 64 + (c.toNat - 0x80)) [a, b, c]
  | four {a b c d : UInt8} {w : ℕ} (hw : w = (a.toNat - 0xf0) * 64 + (b.toNat - 0x80))
      (ha : 0xf0 ≤ a.toNat ∧ a.toNat < 0xf5) (hb : IsLater b) (hc : IsLater c) (hd : IsLater d)
      (long : 0x10 ≤ w) (last : w < 0x110) :
      Spells ((w * 64 + (c.toNat - 0x80)) * 64 + (d.toNat - 0x80)) [a, b, c, d]

theorem toNat_ofNat {n : ℕ} (h : n < 256) : (UInt8.ofNat n).toNat = n := by
  rw [UInt8.toNat_ofNat', Nat.mod_eq_of_lt h]

theorem eq_ofNat {n : ℕ} {b : UInt8} (h : n = b.toNat) : UInt8.ofNat n = b := by
  rw [h, UInt8.ofNat_toNat]

theorem isLater_ofNat (n : ℕ) : IsLater (UInt8.ofNat (n % 64 + 128)) := by
  rw [IsLater, toNat_ofNat (by omega)]
  omega

/-- **The bytes of a character spell** its code point. -/
theorem spells_utf8EncodeChar (c : Char) : Spells c.toNat (String.utf8EncodeChar c) := by
  have hvalid : c.toNat.isValidChar := c.valid
  have hbytes : c.val.toNat = c.toNat := rfl
  have hlater : ∀ n, (UInt8.ofNat (n % 64 + 128)).toNat = n % 64 + 128 :=
    fun n => toNat_ofNat (by omega)
  simp only [String.utf8EncodeChar, hbytes]
  rw [Nat.isValidChar] at hvalid
  generalize c.toNat = v at hvalid ⊢
  split_ifs with h₁ h₂ h₃
  · have ha := toNat_ofNat (n := v) (by omega)
    have hspell := Spells.one (a := UInt8.ofNat v) (by omega)
    rwa [ha] at hspell
  · have ha := toNat_ofNat (n := v / 64 % 32 + 192) (by omega)
    have hspell := Spells.two (a := UInt8.ofNat (v / 64 % 32 + 192)) (by omega) (isLater_ofNat v)
    have hcode : (v / 64 % 32 + 192 - 0xc0) * 64 + (v % 64 + 128 - 0x80) = v := by omega
    rwa [ha, hlater, hcode] at hspell
  · have ha := toNat_ofNat (n := v / 4096 % 16 + 224) (by omega)
    have hw : v / 64 = (v / 4096 % 16 + 224 - 0xe0) * 64 + (v / 64 % 64 + 128 - 0x80) := by omega
    rw [← ha, ← hlater (v / 64)] at hw
    have hspell := Spells.three hw (by omega) (isLater_ofNat _) (isLater_ofNat v) (by omega)
      (by omega)
    have hcode : v / 64 * 64 + (v % 64 + 128 - 0x80) = v := by omega
    rwa [hlater, hcode] at hspell
  · have ha := toNat_ofNat (n := v / 262144 % 8 + 240) (by omega)
    have hw : v / 4096 = (v / 262144 % 8 + 240 - 0xf0) * 64 + (v / 4096 % 64 + 128 - 0x80) := by
      omega
    rw [← ha, ← hlater (v / 4096)] at hw
    have hspell := Spells.four hw (by omega) (isLater_ofNat _) (isLater_ofNat (v / 64))
      (isLater_ofNat v) (by omega) (by omega)
    have hcode : (v / 4096 * 64 + (v / 64 % 64 + 128 - 0x80)) * 64 + (v % 64 + 128 - 0x80) = v := by
      omega
    rwa [hlater, hlater, hcode] at hspell

/-- A code point that is spelled belongs to a character. -/
theorem Spells.isValidChar {v : ℕ} {bytes : List UInt8} (h : Spells v bytes) : v.isValidChar := by
  rw [Nat.isValidChar]
  cases h with
  | one ha => omega
  | two ha hb =>
    obtain ⟨hb, hb'⟩ := hb
    omega
  | three hw ha hb hc long half =>
    obtain ⟨hb, hb'⟩ := hb
    obtain ⟨hc, hc'⟩ := hc
    omega
  | four hw ha hb hc hd long last =>
    obtain ⟨hc, hc'⟩ := hc
    obtain ⟨hd, hd'⟩ := hd
    omega

/-- **What spells a code point** are the bytes of its character. -/
theorem Spells.utf8EncodeChar_eq {v : ℕ} {bytes : List UInt8} (h : Spells v bytes) :
    String.utf8EncodeChar (Char.ofNat v) = bytes := by
  have hv : (Char.ofNat v).val.toNat = v := (Char.toNat_ofNat v).trans (if_pos h.isValidChar)
  simp only [String.utf8EncodeChar, hv]
  cases h with
  | one ha => rw [if_pos (by omega), UInt8.ofNat_toNat]
  | @two a b ha hb =>
    obtain ⟨hb, hb'⟩ := hb
    generalize hu : (a.toNat - 0xc0) * 64 + (b.toNat - 0x80) = u
    have hfirst := eq_ofNat (b := a) (n := u / 64 % 32 + 192) (by omega)
    have hlast := eq_ofNat (b := b) (n := u % 64 + 128) (by omega)
    rw [if_neg (by omega), if_pos (by omega), hfirst, hlast]
  | @three a b c w hw ha hb hc long half =>
    obtain ⟨hb, hb'⟩ := hb
    obtain ⟨hc, hc'⟩ := hc
    generalize hu : w * 64 + (c.toNat - 0x80) = u
    have hfirst := eq_ofNat (b := a) (n := u / 4096 % 16 + 224) (by omega)
    have hnext := eq_ofNat (b := b) (n := u / 64 % 64 + 128) (by omega)
    have hlast := eq_ofNat (b := c) (n := u % 64 + 128) (by omega)
    rw [if_neg (by omega), if_neg (by omega), if_pos (by omega), hfirst, hnext, hlast]
  | @four a b c d w hw ha hb hc hd long last =>
    obtain ⟨hb, hb'⟩ := hb
    obtain ⟨hc, hc'⟩ := hc
    obtain ⟨hd, hd'⟩ := hd
    generalize hu : (w * 64 + (c.toNat - 0x80)) * 64 + (d.toNat - 0x80) = u
    have hfirst := eq_ofNat (b := a) (n := u / 262144 % 8 + 240) (by omega)
    have hnext := eq_ofNat (b := b) (n := u / 4096 % 64 + 128) (by omega)
    have hthird := eq_ofNat (b := c) (n := u / 64 % 64 + 128) (by omega)
    have hlast := eq_ofNat (b := d) (n := u % 64 + 128) (by omega)
    rw [if_neg (by omega), if_neg (by omega), if_neg (by omega), hfirst, hnext, hthird, hlast]

/-! ### One character -/

namespace Decoder

variable {done : Text} {b : UInt8}

/-- The last byte of a character completes it. -/
theorem feed_last {code low high : ℕ} (hlow : low ≤ b.toNat) (hhigh : b.toNat ≤ high) :
    feed ⟨done, some ⟨code, 0, low, high⟩⟩ b =
      some ⟨Char.ofNat (code * 64 + (b.toNat - 0x80)) :: done, none⟩ :=
  if_pos ⟨hlow, hhigh⟩

/-- Any other byte behind the first one takes it further. -/
theorem feed_later {code later low high w : ℕ} (hlow : low ≤ b.toNat) (hhigh : b.toNat ≤ high)
    (hw : w = code * 64 + (b.toNat - 0x80)) :
    feed ⟨done, some ⟨code, later + 1, low, high⟩⟩ b =
      some ⟨done, some ⟨w, later, 0x80, if w / 0x20 = 0x1b then 0 else 0xbf⟩⟩ := by
  rw [hw]
  exact if_pos ⟨hlow, hhigh⟩

/-- The decoder is somewhere only where a byte within the bounds leads. -/
theorem bounds_of_feed {c : Begun} {d : Decoder} (h : feed ⟨done, some c⟩ b = some d) :
    c.low ≤ b.toNat ∧ b.toNat ≤ c.high := by
  by_contra hout
  simp only [feed, feedLater, if_neg hout] at h
  cases h

end Decoder

open Decoder

/-- **The decoder takes what spells a code point** for its character. -/
theorem Spells.foldlM_feed {v : ℕ} {bytes : List UInt8} (h : Spells v bytes) (done : Text) :
    bytes.foldlM feed ⟨done, none⟩ = some ⟨Char.ofNat v :: done, none⟩ := by
  cases h with
  | @one a ha =>
    have hfirst : feed ⟨done, none⟩ a = some ⟨Char.ofNat a.toNat :: done, none⟩ := if_pos ha
    rw [List.foldlM_cons, hfirst]
    rfl
  | @two a b ha hb =>
    have hfirst : feed ⟨done, none⟩ a = some ⟨done, some ⟨a.toNat - 0xc0, 0, 0x80, 0xbf⟩⟩ := by
      simp only [feed, feedFirst]
      rw [if_neg (by omega), if_neg (by omega), if_pos (by omega)]
      rfl
    rw [List.foldlM_cons, hfirst, Option.bind_eq_bind, Option.bind_some, List.foldlM_cons,
      feed_last hb.1 hb.2]
    rfl
  | @three a b c w hw ha hb hc long half =>
    have hfirst : feed ⟨done, none⟩ a = some ⟨done, some ⟨a.toNat - 0xe0, 1,
        if a.toNat = 0xe0 then 0xa0 else 0x80, 0xbf⟩⟩ := by
      simp only [feed, feedFirst]
      rw [if_neg (by omega), if_neg (by omega), if_neg (by omega), if_pos (by omega)]
      rfl
    have hlow : (if a.toNat = 0xe0 then 0xa0 else 0x80) ≤ b.toNat := by
      obtain ⟨hb, -⟩ := hb
      split <;> omega
    rw [List.foldlM_cons, hfirst, Option.bind_eq_bind, Option.bind_some, List.foldlM_cons,
      feed_later hlow hb.2 hw, Option.bind_eq_bind, Option.bind_some, List.foldlM_cons,
      feed_last hc.1 (by rw [if_neg half]; exact hc.2)]
    rfl
  | @four a b c d w hw ha hb hc hd long last =>
    have hfirst : feed ⟨done, none⟩ a = some ⟨done, some ⟨a.toNat - 0xf0, 2,
        if a.toNat = 0xf0 then 0x90 else 0x80, if a.toNat = 0xf4 then 0x8f else 0xbf⟩⟩ := by
      simp only [feed, feedFirst]
      rw [if_neg (by omega), if_neg (by omega), if_neg (by omega), if_neg (by omega),
        if_pos (by omega)]
      rfl
    have hbounds : (if a.toNat = 0xf0 then 0x90 else 0x80) ≤ b.toNat ∧
        b.toNat ≤ if a.toNat = 0xf4 then 0x8f else 0xbf := by
      obtain ⟨hb, hb'⟩ := hb
      constructor <;> split <;> omega
    have hnext : ¬w / 0x20 = 0x1b := by omega
    have hthird : ¬(w * 64 + (c.toNat - 0x80)) / 0x20 = 0x1b := by omega
    rw [List.foldlM_cons, hfirst, Option.bind_eq_bind, Option.bind_some, List.foldlM_cons,
      feed_later hbounds.1 hbounds.2 hw, Option.bind_eq_bind, Option.bind_some, List.foldlM_cons,
      feed_later hc.1 (by rw [if_neg hnext]; exact hc.2) rfl, Option.bind_eq_bind,
      Option.bind_some, List.foldlM_cons, feed_last hd.1 (by rw [if_neg hthird]; exact hd.2)]
    rfl

/-- A character that has begun goes on. -/
theorem Decoder.exists_cons_of_begun {done done' : Text} {c : Begun} {bytes : List UInt8}
    (h : bytes.foldlM feed ⟨done, some c⟩ = some ⟨done', none⟩) :
    ∃ b rest d, bytes = b :: rest ∧ (c.low ≤ b.toNat ∧ b.toNat ≤ c.high) ∧
      feed ⟨done, some c⟩ b = some d ∧ rest.foldlM feed d = some ⟨done', none⟩ := by
  cases bytes with
  | nil => cases h
  | cons b rest =>
    rw [List.foldlM_cons] at h
    obtain ⟨d, hd, h⟩ := Option.bind_eq_some_iff.mp h
    exact ⟨b, rest, d, rfl, bounds_of_feed hd, hd, h⟩

/-- The last byte of a character. -/
theorem Decoder.exists_last {done done' : Text} {code low high : ℕ} {bytes : List UInt8}
    (h : bytes.foldlM feed ⟨done, some ⟨code, 0, low, high⟩⟩ = some ⟨done', none⟩) :
    ∃ b rest, bytes = b :: rest ∧ (low ≤ b.toNat ∧ b.toNat ≤ high) ∧
      rest.foldlM feed ⟨Char.ofNat (code * 64 + (b.toNat - 0x80)) :: done, none⟩ =
        some ⟨done', none⟩ := by
  obtain ⟨b, rest, d, rfl, hb, hd, h⟩ := exists_cons_of_begun h
  rw [feed_last hb.1 hb.2] at hd
  cases hd
  exact ⟨b, rest, rfl, hb, h⟩

/-- Any other byte behind the first one of a character. -/
theorem Decoder.exists_later {done done' : Text} {code later low high : ℕ} {bytes : List UInt8}
    (h : bytes.foldlM feed ⟨done, some ⟨code, later + 1, low, high⟩⟩ = some ⟨done', none⟩) :
    ∃ b rest w, bytes = b :: rest ∧ (low ≤ b.toNat ∧ b.toNat ≤ high) ∧
      w = code * 64 + (b.toNat - 0x80) ∧
      rest.foldlM feed ⟨done, some ⟨w, later, 0x80, if w / 0x20 = 0x1b then 0 else 0xbf⟩⟩ =
        some ⟨done', none⟩ := by
  obtain ⟨b, rest, d, rfl, hb, hd, h⟩ := exists_cons_of_begun h
  rw [feed_later hb.1 hb.2 rfl] at hd
  cases hd
  exact ⟨b, rest, _, rfl, hb, rfl, h⟩

/-- The bytes between two characters begin with those of one. -/
theorem Decoder.exists_spells_of_feed {done done' : Text} {a : UInt8} {bytes : List UInt8}
    (h : (a :: bytes).foldlM feed ⟨done, none⟩ = some ⟨done', none⟩) :
    ∃ v spelling rest, Spells v spelling ∧ a :: bytes = spelling ++ rest ∧
      rest.foldlM feed ⟨Char.ofNat v :: done, none⟩ = some ⟨done', none⟩ := by
  rw [List.foldlM_cons] at h
  obtain ⟨d, hd, h⟩ := Option.bind_eq_some_iff.mp h
  simp only [feed, feedFirst] at hd
  by_cases h₁ : a.toNat < 0x80
  · rw [if_pos h₁] at hd
    cases hd
    exact ⟨_, _, bytes, .one h₁, rfl, h⟩
  by_cases h₂ : a.toNat < 0xc2
  · rw [if_neg h₁, if_pos h₂] at hd
    cases hd
  by_cases h₃ : a.toNat < 0xe0
  · rw [if_neg h₁, if_neg h₂, if_pos h₃] at hd
    cases hd
    obtain ⟨b, rest, rfl, hb, h⟩ := exists_last h
    exact ⟨_, _, rest, .two ⟨by omega, h₃⟩ hb, rfl, h⟩
  by_cases h₄ : a.toNat < 0xf0
  · rw [if_neg h₁, if_neg h₂, if_neg h₃, if_pos h₄] at hd
    cases hd
    obtain ⟨b, rest, w, rfl, ⟨hlow, hb⟩, hw, h⟩ := exists_later h
    obtain ⟨c, rest, rfl, ⟨hc, hhigh⟩, h⟩ := exists_last h
    have hb₀ : 0x80 ≤ b.toNat ∧ (a.toNat = 0xe0 → 0xa0 ≤ b.toNat) := by
      split at hlow <;> omega
    have hhalf : w / 0x20 ≠ 0x1b ∧ c.toNat ≤ 0xbf := by
      split at hhigh <;> omega
    exact ⟨_, _, rest, .three hw ⟨by omega, h₄⟩ ⟨hb₀.1, hb⟩ ⟨hc, hhalf.2⟩ (by omega) hhalf.1, rfl, h⟩
  by_cases h₅ : a.toNat < 0xf5
  · rw [if_neg h₁, if_neg h₂, if_neg h₃, if_neg h₄, if_pos h₅] at hd
    cases hd
    obtain ⟨b, rest, w, rfl, ⟨hlow, hhigh⟩, hw, h⟩ := exists_later h
    obtain ⟨c, rest, u, rfl, ⟨hc, hnext⟩, hu, h⟩ := exists_later h
    obtain ⟨d, rest, rfl, ⟨hd, hthird⟩, h⟩ := exists_last h
    rw [hu] at h
    have hb : 0x80 ≤ b.toNat ∧ (a.toNat = 0xf0 → 0x90 ≤ b.toNat) := by
      split at hlow <;> omega
    have hb₀ : b.toNat ≤ 0xbf ∧ (a.toNat = 0xf4 → b.toNat ≤ 0x8f) := by
      split at hhigh <;> omega
    have hc₀ : c.toNat ≤ 0xbf := by
      split at hnext <;> omega
    have hd₀ : d.toNat ≤ 0xbf := by
      split at hthird <;> omega
    exact ⟨_, _, rest, .four hw ⟨by omega, h₅⟩ ⟨hb.1, hb₀.1⟩ ⟨hc, hc₀⟩ ⟨hd, hd₀⟩ (by omega)
      (by omega), rfl, h⟩
  · rw [if_neg h₁, if_neg h₂, if_neg h₃, if_neg h₄, if_neg h₅] at hd
    cases hd

/-! ### Texts -/

/-- The encoding of a text. -/
def encoded (t : Text) : List UInt8 := t.flatMap String.utf8EncodeChar

theorem toUTF8_ofList (t : Text) : (String.ofList t).toUTF8 = (encoded t).toByteArray := by
  rw [String.toUTF8_eq_toByteArray, String.toByteArray_ofList, List.utf8Encode, encoded]

/-- **The decoder takes the encoding of a text** for the text. -/
theorem foldlM_feed_encoded (t done : Text) :
    (encoded t).foldlM feed ⟨done, none⟩ = some ⟨t.reverse ++ done, none⟩ := by
  induction t generalizing done with
  | nil => rfl
  | cons c t ih =>
    rw [encoded, List.flatMap_cons, List.foldlM_append, (spells_utf8EncodeChar c).foldlM_feed,
      Char.ofNat_toNat, Option.bind_eq_bind, Option.bind_some, ← encoded, ih, List.reverse_cons,
      List.append_assoc]
    rfl

/-- **Whatever else it takes** from between two characters to between two characters is the encoding
of a text. -/
theorem exists_encoded_of_feed {done done' : Text} {bytes : List UInt8}
    (h : bytes.foldlM feed ⟨done, none⟩ = some ⟨done', none⟩) : ∃ t, bytes = encoded t := by
  -- one character after the other; each of them takes a byte at least
  induction hlength : bytes.length using Nat.strong_induction_on generalizing bytes done with
  | _ n ih =>
    cases bytes with
    | nil => exact ⟨[], rfl⟩
    | cons a bytes =>
      obtain ⟨v, spelling, rest, hspell, hbytes, h⟩ := exists_spells_of_feed h
      have hpos : 0 < spelling.length := by cases hspell <;> exact Nat.succ_pos _
      rw [hbytes, List.length_append] at hlength
      obtain ⟨t, ht⟩ := ih rest.length (by omega) h rfl
      refine ⟨Char.ofNat v :: t, ?_⟩
      rw [hbytes, encoded, List.flatMap_cons, hspell.utf8EncodeChar_eq, ht, encoded]

/-! ### Files -/

namespace Decoder

variable {d d' mark : Decoder} {count : ℕ} {bytes : List UInt8}

theorem read_of_feed (h : bytes.foldlM feed d = some d') :
    d.read mark count bytes = ⟨d'.done.reverse, d'.begun.isNone⟩ := by
  induction bytes generalizing d mark count with
  | nil =>
    cases h
    rfl
  | cons b bytes ih =>
    rw [List.foldlM_cons] at h
    obtain ⟨e, he, h⟩ := Option.bind_eq_some_iff.mp h
    rw [read, he]
    exact ih h

theorem feed_of_whole (h : (d.read mark count bytes).whole = true) :
    ∃ done, bytes.foldlM feed d = some ⟨done, none⟩ := by
  induction bytes generalizing d mark count with
  | nil =>
    obtain ⟨done, begun⟩ := d
    have hbegun : begun = none := Option.isNone_iff_eq_none.mp h
    exact ⟨done, by rw [hbegun]; rfl⟩
  | cons b bytes ih =>
    rw [read] at h
    rw [List.foldlM_cons]
    cases hfeed : d.feed b with
    | none =>
      rw [hfeed] at h
      cases h
    | some e =>
      rw [hfeed] at h
      exact ih h

/-- What is decoded stays. -/
theorem done_suffix_of_feed {b : UInt8} (h : d.feed b = some d') : d.done <:+ d'.done := by
  obtain ⟨done, _ | c⟩ := d
  · simp only [feed, feedFirst] at h
    split_ifs at h <;> cases h
    · exact List.suffix_cons _ done
    all_goals exact List.suffix_refl done
  · have hbounds := bounds_of_feed h
    simp only [feed, feedLater, if_pos hbounds] at h
    split at h <;> cases h
    · exact List.suffix_cons _ done
    · exact List.suffix_refl done

theorem prefix_text_read {t : Text} (hdone : t.reverse <:+ d.done)
    (hmark : count % portion = 0 ∨ t.reverse <:+ mark.done) :
    t <+: (d.read mark count bytes).text := by
  induction bytes generalizing d mark count with
  | nil =>
    rw [read, ← List.reverse_reverse t]
    exact List.reverse_prefix.mpr hdone
  | cons b bytes ih =>
    have hmark : t.reverse <:+ (if count % portion = 0 then d else mark).done := by
      split
      next => exact hdone
      next hcount => exact hmark.resolve_left hcount
    rw [read]
    cases hfeed : d.feed b with
    | none =>
      rw [← List.reverse_reverse t]
      exact List.reverse_prefix.mpr hmark
    | some e => exact ih (hdone.trans (done_suffix_of_feed hfeed)) (.inr hmark)

theorem exists_read_append (h : bytes.foldlM feed d = some d') (rest : List UInt8) :
    ∃ mark', d.read mark count (bytes ++ rest) = d'.read mark' (count + bytes.length) rest := by
  induction bytes generalizing d mark count with
  | nil =>
    cases h
    exact ⟨mark, rfl⟩
  | cons b bytes ih =>
    rw [List.foldlM_cons] at h
    obtain ⟨e, he, h⟩ := Option.bind_eq_some_iff.mp h
    rw [List.cons_append, read, he, List.length_cons, Nat.add_comm bytes.length, ← Nat.add_assoc]
    exact ih h

end Decoder

namespace Extract

/-- **The files that are read as a whole** are the encodings of texts. -/
theorem ofBytes_eq_iff {bytes : ByteArray} {t : Text} :
    ofBytes bytes = ⟨t, true⟩ ↔ bytes = (String.ofList t).toUTF8 := by
  have hencoded : ∀ u : Text, ofBytes (String.ofList u).toUTF8 = ⟨u, true⟩ := by
    intro u
    rw [ofBytes, toUTF8_ofList, List.toList_data_toByteArray]
    rw [start, read_of_feed (foldlM_feed_encoded u []), List.append_nil, List.reverse_reverse]
    rfl
  constructor
  · intro h
    obtain ⟨done, hfeed⟩ := feed_of_whole (congrArg Extract.whole h)
    obtain ⟨u, hu⟩ := exists_encoded_of_feed hfeed
    have hbytes : bytes = (String.ofList u).toUTF8 := by
      rw [toUTF8_ofList, ← hu]
      exact ByteArray.ext List.data_toByteArray.symm
    rw [hbytes, hencoded] at h
    cases h
    exact hbytes
  · rintro rfl
    exact hencoded t

/-- **What is read of any other file**: at least a text whose encoding fills the first portions. -/
theorem prefix_text_ofBytes {bytes : ByteArray} {t : Text} {rest : List UInt8}
    (hbytes : bytes.data.toList = encoded t ++ rest) (hlength : portion ∣ (encoded t).length) :
    t <+: (ofBytes bytes).text := by
  obtain ⟨mark, hread⟩ := exists_read_append (foldlM_feed_encoded t []) rest
  rw [ofBytes, hbytes]
  refine (congrArg (t <+: ·.text) hread).mpr (prefix_text_read ?_ ?_)
  · rw [List.append_nil]
  · left
    rw [Nat.zero_add]
    exact Nat.mod_eq_zero_of_dvd hlength

end Extract

end Geofence.Text
