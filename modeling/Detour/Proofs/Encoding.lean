import Detour.Text.Utf8
import Mathlib.Tactic.SplitIfs

/-!
# Texts as bytes and back

Every text can be read back from its bytes.

* `Utf8.front_encodeChar`: the bytes of a character are read as that character, whatever follows.
* `Utf8.decode?_encode` puts the characters together.
-/

namespace Detour

namespace Utf8

/-- A number of eight bits is the value of its byte. -/
theorem toNat_toUInt8 {n : Nat} (h : n < 256) : n.toUInt8.toNat = n := by
  simp [Nat.mod_eq_of_lt h]

/-- A continuing byte carries its six bits. -/
theorem tail_spec (n : Nat) :
    isTail (0x80 + n % 64).toUInt8 ∧ payload (0x80 + n % 64).toUInt8 = n % 64 := by
  have hbyte := toNat_toUInt8 (n := 0x80 + n % 64) (by omega)
  refine ⟨?_, ?_⟩
  · simp only [isTail, Bool.and_eq_true, decide_eq_true_eq, UInt8.le_iff_toNat_le, hbyte,
      UInt8.reduceToNat]
    omega
  · rw [payload, hbyte]
    omega

/-- A continuing byte stands second if it is within the bounds that some first bytes set. -/
theorem isSecond_of_bounds {first b : UInt8} (htail : 0x80 ≤ b.toNat ∧ b.toNat ≤ 0xBF)
    (hlow : (first.toNat = 0xE0 → 0xA0 ≤ b.toNat) ∧ (first.toNat = 0xF0 → 0x90 ≤ b.toNat))
    (hhigh : (first.toNat = 0xED → b.toNat ≤ 0x9F) ∧ (first.toNat = 0xF4 → b.toNat ≤ 0x8F)) :
    isSecond first b := by
  simp only [isSecond, ← UInt8.toNat_inj, UInt8.le_iff_toNat_le, Bool.and_eq_true, decide_eq_true_eq,
    apply_ite UInt8.toNat, UInt8.reduceToNat]
  grind

/-- The code points of characters leave out the surrogates. -/
theorem toNat_bounds (c : Char) : c.toNat < 0xD800 ∨ 0xDFFF < c.toNat ∧ c.toNat < 0x110000 := c.valid

/-- The bytes of a character are read as that character, whatever follows. -/
theorem front_encodeChar (c : Char) : ∃ first tail, encodeChar c = first :: tail ∧
    ∀ rest, front first (tail ++ rest) = (some c, tail.length + 1) := by
  have hbounds := toNat_bounds c
  have hself : Char.ofNat c.toNat = c := Char.ofNat_toNat c
  generalize hn : c.toNat = n at hbounds hself
  simp only [encodeChar, hn]
  by_cases hone : n < 0x80
  · rw [if_pos hone]
    have hfirst := toNat_toUInt8 (n := n) (by omega)
    refine ⟨_, _, rfl, fun rest => ?_⟩
    simp only [front, UInt8.lt_iff_toNat_lt, hfirst, UInt8.reduceToNat, hone, if_true, hself,
      List.length_nil]
  by_cases htwo : n < 0x800
  · rw [if_neg hone, if_pos htwo]
    have hfirst := toNat_toUInt8 (n := 0xC0 + n / 64) (by omega)
    obtain ⟨htail, hpayload⟩ := tail_spec n
    refine ⟨_, _, rfl, fun rest => ?_⟩
    have hcode : (0xC0 + n / 64) % 32 * 64 + n % 64 = n := by omega
    simp only [front, UInt8.lt_iff_toNat_lt, UInt8.le_iff_toNat_le, hfirst, UInt8.reduceToNat]
    rw [if_neg (by omega), if_pos (by simp; omega)]
    simp only [List.cons_append, htail, hpayload, hcode, hself, if_true, List.length_cons,
      List.length_nil]
  by_cases hthree : n < 0x10000
  · rw [if_neg hone, if_neg htwo, if_pos hthree]
    have hfirst := toNat_toUInt8 (n := 0xE0 + n / 4096) (by omega)
    have hbyte := toNat_toUInt8 (n := 0x80 + n / 64 % 64) (by omega)
    obtain ⟨-, hpayload⟩ := tail_spec (n / 64)
    obtain ⟨htail, hpayload'⟩ := tail_spec n
    -- the second byte is large enough behind the least first byte, and no surrogate is spelled
    have hsecond : isSecond (0xE0 + n / 4096).toUInt8 (0x80 + n / 64 % 64).toUInt8 := by
      refine isSecond_of_bounds ?_ ⟨?_, ?_⟩ ⟨?_, ?_⟩ <;> rw [hbyte] <;> omega
    refine ⟨_, _, rfl, fun rest => ?_⟩
    have hcode : (0xE0 + n / 4096) % 16 * 4096 + n / 64 % 64 * 64 + n % 64 = n := by omega
    simp only [front, UInt8.lt_iff_toNat_lt, UInt8.le_iff_toNat_le, hfirst, UInt8.reduceToNat]
    rw [if_neg (by omega), if_neg (by simp; omega), if_pos (by simp; omega)]
    simp only [List.cons_append, hsecond, htail, hpayload, hpayload', hcode, hself, if_true,
      List.length_cons, List.length_nil]
  · rw [if_neg hone, if_neg htwo, if_neg hthree]
    have hfirst := toNat_toUInt8 (n := 0xF0 + n / 262144) (by omega)
    have hbyte := toNat_toUInt8 (n := 0x80 + n / 4096 % 64) (by omega)
    obtain ⟨-, hpayload⟩ := tail_spec (n / 4096)
    obtain ⟨htail, hpayload'⟩ := tail_spec (n / 64)
    obtain ⟨htail', hpayload''⟩ := tail_spec n
    have hsecond : isSecond (0xF0 + n / 262144).toUInt8 (0x80 + n / 4096 % 64).toUInt8 := by
      refine isSecond_of_bounds ?_ ⟨?_, ?_⟩ ⟨?_, ?_⟩ <;> rw [hbyte] <;> omega
    refine ⟨_, _, rfl, fun rest => ?_⟩
    have hcode : (0xF0 + n / 262144) % 8 * 262144 + n / 4096 % 64 * 4096 + n / 64 % 64 * 64 +
        n % 64 = n := by omega
    simp only [front, UInt8.lt_iff_toNat_lt, UInt8.le_iff_toNat_le, hfirst, UInt8.reduceToNat]
    rw [if_neg (by omega), if_neg (by simp; omega), if_neg (by simp; omega), if_pos (by simp; omega)]
    simp only [List.cons_append, hsecond, htail, htail', hpayload, hpayload', hpayload'', hcode,
      hself, if_true, List.length_cons, List.length_nil]

/-- A byte of ASCII is in the bytes of no character but the one with its number. -/
theorem toNat_of_mem_encodeChar {c : Char} {b : UInt8} (h : b ∈ encodeChar c) (hb : b.toNat < 128) :
    c.toNat = b.toNat := by
  have hbounds := toNat_bounds c
  have hlong : ∀ {n : Nat}, 128 ≤ n → n < 256 → b ≠ n.toUInt8 := by
    rintro n hlow hhigh rfl
    rw [toNat_toUInt8 hhigh] at hb
    omega
  simp only [encodeChar] at h
  split at h
  · rw [List.mem_singleton.1 h, toNat_toUInt8 (by omega)]
  · exfalso
    split_ifs at h <;> simp only [List.mem_cons, List.not_mem_nil, or_false] at h
    · rcases h with h | h <;> exact hlong (by omega) (by omega) h
    · rcases h with h | h | h <;> exact hlong (by omega) (by omega) h
    · rcases h with h | h | h | h <;> exact hlong (by omega) (by omega) h

/-- Skipping as many bytes as a leading part has leaves the rest. -/
theorem charsFrom_append (lead bytes : Bytes) :
    charsFrom lead.length (lead ++ bytes) = charsFrom 0 bytes := by
  induction lead with
  | nil => rfl
  | cons b lead ih => simpa [charsFrom] using ih

/-- The bytes of a text are read as its characters, and the reading goes on behind them. -/
theorem charsFrom_encode (s : Text) (rest : Bytes) :
    charsFrom 0 (encode s ++ rest) = s.map some ++ charsFrom 0 rest := by
  induction s with
  | nil => rfl
  | cons c s ih =>
    obtain ⟨first, tail, hbytes, hfront⟩ := front_encodeChar c
    have hsplit : encode (c :: s) ++ rest = first :: (tail ++ (encode s ++ rest)) := by
      rw [encode, List.flatMap_cons, hbytes, List.append_assoc, List.cons_append]
      rfl
    rw [hsplit, charsFrom, hfront]
    exact congrArg (some c :: ·) ((charsFrom_append tail _).trans ih)

/-- A text is read back from its bytes. -/
theorem decode?_encode (s : Text) : decode? (encode s) = some s := by
  have hchars := charsFrom_encode s []
  have hnil : charsFrom 0 [] = [] := rfl
  rw [List.append_nil, hnil, List.append_nil] at hchars
  have hall : ∀ t : Text, (t.map some).mapM id = some t := by
    intro t
    induction t with
    | nil => rfl
    | cons c t ih =>
      rw [List.map_cons, List.mapM_cons, ih]
      rfl
  rw [decode?, hchars, hall]

end Utf8
end Detour
