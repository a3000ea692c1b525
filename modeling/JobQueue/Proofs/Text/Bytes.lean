import Mathlib.Data.String.Basic
import Mathlib.Tactic

/-! # The order of texts by bytes

Texts are in order by their characters. Written in UTF-8 they are in the same order by their bytes
(`lt_iff_bytes_lt`), since the first byte tells how many follow, and more bytes stand for later
characters. -/

namespace JobQueue.Text

open String (utf8EncodeChar)

/-- The bytes of a text, as numbers. -/
def bytes (s : String) : List Nat := s.toByteArray.data.toList.map UInt8.toNat

/-- The bytes of a character, as numbers. -/
def charBytes (c : Char) : List Nat := (utf8EncodeChar c).map UInt8.toNat

theorem bytes_eq (s : String) : bytes s = s.toList.flatMap charBytes := by
  unfold bytes charBytes
  rw [← String.utf8Encode_toList, List.utf8Encode, List.data_toByteArray, List.map_flatMap]

/-- Of two numbers written with four bytes, the lesser has a lesser byte where they first differ. -/
theorem four_bytes_lt {v w : Nat} (hlt : v < w) (hw : w < 2097152) (P : Prop) :
    (v / 262144 % 8 + 240) % 2 ^ 8 < (w / 262144 % 8 + 240) % 2 ^ 8 ∨
      (v / 262144 % 8 + 240) % 2 ^ 8 = (w / 262144 % 8 + 240) % 2 ^ 8 ∧
        ((v / 4096 % 64 + 128) % 2 ^ 8 < (w / 4096 % 64 + 128) % 2 ^ 8 ∨
          (v / 4096 % 64 + 128) % 2 ^ 8 = (w / 4096 % 64 + 128) % 2 ^ 8 ∧
            ((v / 64 % 64 + 128) % 2 ^ 8 < (w / 64 % 64 + 128) % 2 ^ 8 ∨
              (v / 64 % 64 + 128) % 2 ^ 8 = (w / 64 % 64 + 128) % 2 ^ 8 ∧
                ((v % 64 + 128) % 2 ^ 8 < (w % 64 + 128) % 2 ^ 8 ∨
                  (v % 64 + 128) % 2 ^ 8 = (w % 64 + 128) % 2 ^ 8 ∧ P))) := by
  have hfirst : v / 262144 < w / 262144 ∨ v / 262144 = w / 262144 := by omega
  rcases hfirst with hfirst | hfirst
  · exact .inl (by omega)
  · refine .inr ⟨by omega, ?_⟩
    have hsecond : v / 4096 < w / 4096 ∨ v / 4096 = w / 4096 := by omega
    rcases hsecond with hsecond | hsecond
    · exact .inl (by omega)
    · refine .inr ⟨by omega, ?_⟩
      have hthird : v / 64 < w / 64 ∨ v / 64 = w / 64 := by omega
      rcases hthird with hthird | hthird
      · exact .inl (by omega)
      · exact .inr ⟨by omega, .inl (by omega)⟩

theorem charBytes_lt {c d : Char} (h : c < d) (rest rest' : List Nat) :
    charBytes c ++ rest < charBytes d ++ rest' := by
  have hlt : c.val.toNat < d.val.toNat := h
  have hd : d.val.toNat < 1114112 := by
    have hvalid := d.valid
    unfold UInt32.isValidChar Nat.isValidChar at hvalid
    omega
  unfold charBytes utf8EncodeChar
  dsimp only
  generalize c.val.toNat = v at hlt
  generalize d.val.toNat = w at hlt hd
  have hfour := four_bytes_lt hlt (by omega) (rest < rest')
  split_ifs <;> simp only [List.map_cons, List.map_nil, List.cons_append, List.nil_append,
    List.cons_lt_cons_iff, UInt8.toNat_ofNat']
  all_goals first
    | exact hfour
    | omega

theorem flatMap_charBytes_lt {l m : List Char} (h : l < m) :
    l.flatMap charBytes < m.flatMap charBytes := by
  induction l generalizing m with
  | nil =>
    cases m with
    | nil => exact absurd h (lt_irrefl _)
    | cons d m =>
      obtain ⟨b, bs, hb⟩ := List.exists_cons_of_ne_nil (String.utf8EncodeChar_ne_nil (c := d))
      rw [List.flatMap_nil, List.flatMap_cons, charBytes, hb]
      exact List.nil_lt_cons _ _
  | cons c l ih =>
    cases m with
    | nil => exact absurd h (by simp)
    | cons d m =>
      rw [List.flatMap_cons, List.flatMap_cons]
      rcases List.cons_lt_cons_iff.1 h with hcd | ⟨rfl, hlm⟩
      · exact charBytes_lt hcd _ _
      · exact List.append_left_lt (ih hlm)

theorem strictMono_bytes : StrictMono bytes := by
  intro a b hab
  rw [bytes_eq, bytes_eq]
  exact flatMap_charBytes_lt (String.lt_iff_toList_lt.1 hab)

/-- **The order of texts is that of their bytes.** -/
theorem lt_iff_bytes_lt {s t : String} : s < t ↔ bytes s < bytes t :=
  strictMono_bytes.lt_iff_lt.symm

end JobQueue.Text
