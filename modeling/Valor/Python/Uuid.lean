/-
  Python `uuid.UUID`: a 128-bit integer with its canonical text.

  `str` is the text `xxxxxxxx-xxxx-xxxx-xxxx-xxxxxxxxxxxx` in lowercase hexadecimal.
  Different UUIDs have different texts (`str_injective`); the proof reads the digits
  back, 16 at a time less the dashes.

  `ofText` is the constructor `UUID(text)`. It takes many texts that `str` never gives:
  braces, a `urn:` or `uuid:`, dashes anywhere, and all that `int(digits, 16)` reads. It
  reads the canonical text back (`ofText_str`).
-/
import Mathlib.Data.Finset.Sort
import Valor.Python.Text

namespace Valor.Python

structure Uuid where
  int : Nat
  int_lt : int < 2 ^ 128
  deriving DecidableEq

namespace Uuid

theorem int_injective : Function.Injective Uuid.int := by
  rintro ⟨a, _⟩ ⟨b, _⟩ h
  simpa using h

/-- UUIDs compare as their integers. -/
instance : LinearOrder Uuid := LinearOrder.lift' Uuid.int int_injective

instance instIsTrans : IsTrans Uuid (· ≤ ·) := ⟨fun _ _ _ => le_trans⟩

instance instAntisymm : Std.Antisymm (α := Uuid) (· ≤ ·) := ⟨fun _ _ => le_antisymm⟩

instance instTotal : Std.Total (α := Uuid) (· ≤ ·) := ⟨le_total⟩

instance (n : Nat) : OfNat Uuid n := ⟨⟨n % 2 ^ 128, Nat.mod_lt _ (by decide)⟩⟩

def hexDigit (n : Nat) : Char :=
  if n < 10 then Char.ofNat (48 + n) else Char.ofNat (87 + n)

/-- The last `k` hexadecimal digits of `v`, most significant first. -/
def hexDigits : Nat → Nat → List Char
  | 0, _ => []
  | k + 1, v => hexDigits k (v / 16) ++ [hexDigit (v % 16)]

/-- The characters of the canonical text. -/
def chars (u : Uuid) : List Char :=
  let h := hexDigits 32 u.int
  h.take 8 ++ '-' :: (h.drop 8).take 4 ++ '-' :: (h.drop 12).take 4 ++
    '-' :: (h.drop 16).take 4 ++ '-' :: h.drop 20

/-- `str(u)`. -/
def str (u : Uuid) : String := String.ofList u.chars

theorem hexDigit_injective {m n : Nat} (hm : m < 16) (hn : n < 16)
    (h : hexDigit m = hexDigit n) : m = n := by
  have key : ∀ a : Fin 16, ∀ b : Fin 16, hexDigit a = hexDigit b → a = b := by decide
  exact congrArg Fin.val (key ⟨m, hm⟩ ⟨n, hn⟩ h)

theorem hexDigit_ne_dash {n : Nat} (hn : n < 16) : hexDigit n ≠ '-' := by
  have key : ∀ a : Fin 16, hexDigit a ≠ '-' := by decide
  exact key ⟨n, hn⟩

@[simp] theorem length_hexDigits (k v : Nat) : (hexDigits k v).length = k := by
  induction k generalizing v with
  | zero => rfl
  | succ k ih => simp [hexDigits, ih]

theorem hexDigits_ne_dash {k v : Nat} {c : Char} (h : c ∈ hexDigits k v) : c ≠ '-' := by
  induction k generalizing v with
  | zero => simp [hexDigits] at h
  | succ k ih =>
    rcases List.mem_append.mp h with h | h
    · exact ih h
    · rw [List.mem_singleton.mp h]
      exact hexDigit_ne_dash (Nat.mod_lt _ (by decide))

theorem hexDigits_injective {k m n : Nat} (hm : m < 16 ^ k) (hn : n < 16 ^ k)
    (h : hexDigits k m = hexDigits k n) : m = n := by
  induction k generalizing m n with
  | zero => omega
  | succ k ih =>
    obtain ⟨hq, hr⟩ := List.append_inj h (by simp)
    have hq' : m / 16 = n / 16 :=
      ih (Nat.div_lt_of_lt_mul (by rwa [Nat.pow_succ, Nat.mul_comm] at hm))
        (Nat.div_lt_of_lt_mul (by rwa [Nat.pow_succ, Nat.mul_comm] at hn)) hq
    have hr' : m % 16 = n % 16 :=
      hexDigit_injective (Nat.mod_lt _ (by decide)) (Nat.mod_lt _ (by decide)) (by simpa using hr)
    omega

/-- The five groups of the text, put together. -/
theorem groups_append (h : List Char) :
    h.take 8 ++ ((h.drop 8).take 4 ++ ((h.drop 12).take 4 ++ ((h.drop 16).take 4 ++
      h.drop 20))) = h := by
  have e20 := List.take_append_drop 4 (h.drop 16)
  have e16 := List.take_append_drop 4 (h.drop 12)
  have e12 := List.take_append_drop 4 (h.drop 8)
  rw [List.drop_drop] at e20 e16 e12
  rw [e20, e16, e12, List.take_append_drop]

/-- Dropping the dashes of the text leaves the 32 digits. -/
theorem filter_chars (u : Uuid) : u.chars.filter (· ≠ '-') = hexDigits 32 u.int := by
  set h := hexDigits 32 u.int with hh
  calc u.chars.filter (· ≠ '-')
      = (h.take 8 ++ ((h.drop 8).take 4 ++ ((h.drop 12).take 4 ++ ((h.drop 16).take 4 ++
          h.drop 20)))).filter (· ≠ '-') := by simp [chars, ← hh]
    _ = h.filter (· ≠ '-') := by rw [groups_append]
    _ = h := List.filter_eq_self.mpr fun c hc => by simpa using hexDigits_ne_dash hc

theorem str_injective : Function.Injective str := by
  intro u v h
  have hc : u.chars = v.chars := by
    simpa [str] using congrArg String.toList h
  have hd : hexDigits 32 u.int = hexDigits 32 v.int := by
    rw [← filter_chars, ← filter_chars, hc]
  have hpow : (16 : Nat) ^ 32 = 2 ^ 128 := by decide
  exact int_injective (hexDigits_injective (hpow ▸ u.int_lt) (hpow ▸ v.int_lt) hd)

/-! ## Reading -/

/-- The zeros of the decimal digits of Unicode 15.1; the other nine follow each. -/
def decimalZeros : List Nat := [
  0x30, 0x660, 0x6f0, 0x7c0, 0x966, 0x9e6, 0xa66, 0xae6, 0xb66, 0xbe6, 0xc66, 0xce6, 0xd66, 0xde6,
  0xe50, 0xed0, 0xf20, 0x1040, 0x1090, 0x17e0, 0x1810, 0x1946, 0x19d0, 0x1a80, 0x1a90, 0x1b50,
  0x1bb0, 0x1c40, 0x1c50, 0xa620, 0xa8d0, 0xa900, 0xa9d0, 0xa9f0, 0xaa50, 0xabf0, 0xff10, 0x104a0,
  0x10d30, 0x11066, 0x110f0, 0x11136, 0x111d0, 0x112f0, 0x11450, 0x114d0, 0x11650, 0x116c0, 0x11730,
  0x118e0, 0x11950, 0x11c50, 0x11d50, 0x11da0, 0x11f50, 0x16a60, 0x16ac0, 0x16b50, 0x1d7ce, 0x1d7d8,
  0x1d7e2, 0x1d7ec, 0x1d7f6, 0x1e140, 0x1e2f0, 0x1e4f0, 0x1e950, 0x1fbf0]

/-- What `int` makes of a character first: ASCII stays, other white space and digits become
    ASCII. -/
def toAscii (c : Char) : Char :=
  if c.toNat < 127 then c
  else if isSpace c then ' '
  else match decimalZeros.find? fun z => z ≤ c.toNat && c.toNat < z + 10 with
    | some z => Char.ofNat (48 + (c.toNat - z))
    | none => '?'

/-- `Py_ISSPACE`. -/
def isAsciiSpace (c : Char) : Bool := c == ' ' || (9 ≤ c.toNat && c.toNat ≤ 13)

def dropSign : List Char → List Char
  | '+' :: cs => cs
  | cs => cs

/-- The prefix `0x`, after which one underscore may stand. -/
def dropBase : List Char → List Char
  | '0' :: 'x' :: '_' :: cs => cs
  | '0' :: 'X' :: '_' :: cs => cs
  | '0' :: 'x' :: cs => cs
  | '0' :: 'X' :: cs => cs
  | cs => cs

def hexValue (c : Char) : Option Nat :=
  if '0' ≤ c ∧ c ≤ '9' then some (c.toNat - 48)
  else if 'a' ≤ c ∧ c ≤ 'f' then some (c.toNat - 87)
  else if 'A' ≤ c ∧ c ≤ 'F' then some (c.toNat - 55)
  else none

/-- The number with these digits, most significant first. -/
def ofHexDigits (digits : List Char) : Option Nat :=
  digits.foldlM (fun n c => (hexValue c).map (16 * n + ·)) 0

/-- `int(text, 16)` of a text without a minus sign. -/
def intBase16 (text : List Char) : Option Nat :=
  let groups := (dropBase (dropSign (stripChars isAsciiSpace (text.map toAscii)))).splitOn '_'
  if groups.any (·.isEmpty) then none else ofHexDigits groups.flatten

/-- `text.replace(pattern, "")` from the first character that is not skipped. -/
def removeFrom (pattern : List Char) : Nat → List Char → List Char
  | _, [] => []
  | skip + 1, _ :: cs => removeFrom pattern skip cs
  | 0, c :: cs =>
      if pattern.isPrefixOf (c :: cs) then removeFrom pattern (pattern.length - 1) cs
      else c :: removeFrom pattern 0 cs

/-- `UUID(text)`; a ValueError is None. -/
def ofText (text : String) : Option Uuid :=
  let bare := removeFrom "uuid:".toList 0 (removeFrom "urn:".toList 0 text.toList)
  let digits := (stripChars (fun c => c == '\x7b' || c == '\x7d') bare).filter (· ≠ '-')
  if digits.length ≠ 32 then none
  else (intBase16 digits).bind fun n => if h : n < 2 ^ 128 then some ⟨n, h⟩ else none

theorem removeFrom_eq_self {c : Char} {pattern cs : List Char} (h : c ∉ cs) :
    removeFrom (c :: pattern) 0 cs = cs := by
  induction cs with
  | nil => rfl
  | cons d cs ih =>
    obtain ⟨hd, hcs⟩ := not_or.mp (mt List.mem_cons.mpr h)
    rw [removeFrom, if_neg, ih hcs]
    simp [List.isPrefixOf, hd]

theorem stripChars_eq_self {p : Char → Bool} {cs : List Char} (h : ∀ c ∈ cs, p c = false) :
    stripChars p cs = cs := by
  have hdrop : ∀ l : List Char, (∀ c ∈ l, p c = false) → l.dropWhile p = l := by
    intro l hl
    cases l with
    | nil => rfl
    | cons c l => exact List.dropWhile_cons_of_neg (by simp [hl c (List.mem_cons_self ..)])
  rw [stripChars, hdrop cs h, hdrop _ fun c hc => h c (List.mem_reverse.mp hc), List.reverse_reverse]

theorem dropSign_eq_self {cs : List Char} (h : '+' ∉ cs) : dropSign cs = cs := by
  unfold dropSign
  split
  · exact absurd (List.mem_cons_self ..) h
  · rfl

theorem dropBase_eq_self {cs : List Char} (hx : 'x' ∉ cs) (hX : 'X' ∉ cs) : dropBase cs = cs := by
  unfold dropBase
  split
  · simp at hx
  · simp at hX
  · simp at hx
  · simp at hX
  · rfl

/-- The sixteen digits that `str` writes, and what reading them needs of each. -/
theorem hexDigit_spec {n : Nat} (hn : n < 16) : hexValue (hexDigit n) = some n ∧
    toAscii (hexDigit n) = hexDigit n ∧ isAsciiSpace (hexDigit n) = false ∧ hexDigit n ≠ '+' ∧
    hexDigit n ≠ '_' ∧ hexDigit n ≠ 'x' ∧ hexDigit n ≠ 'X' ∧ hexDigit n ≠ 'u' ∧
    hexDigit n ≠ '\x7b' ∧ hexDigit n ≠ '\x7d' := by
  have key : ∀ a : Fin 16, hexValue (hexDigit a) = some a.val ∧ toAscii (hexDigit a) = hexDigit a ∧
      isAsciiSpace (hexDigit a) = false ∧ hexDigit a ≠ '+' ∧ hexDigit a ≠ '_' ∧ hexDigit a ≠ 'x' ∧
      hexDigit a ≠ 'X' ∧ hexDigit a ≠ 'u' ∧ hexDigit a ≠ '\x7b' ∧ hexDigit a ≠ '\x7d' := by
    decide
  exact key ⟨n, hn⟩

/-- The digits of a number are digits. -/
theorem mem_hexDigits {k v : Nat} {c : Char} (h : c ∈ hexDigits k v) : ∃ n < 16, c = hexDigit n := by
  induction k generalizing v with
  | zero => simp [hexDigits] at h
  | succ k ih =>
    rcases List.mem_append.mp h with h | h
    · exact ih h
    · exact ⟨v % 16, Nat.mod_lt _ (by decide), List.mem_singleton.mp h⟩

theorem ofHexDigits_hexDigits {k v : Nat} (hv : v < 16 ^ k) : ofHexDigits (hexDigits k v) = some v := by
  induction k generalizing v with
  | zero =>
    obtain rfl : v = 0 := by simpa using hv
    rfl
  | succ k ih =>
    have hq : v / 16 < 16 ^ k := Nat.div_lt_of_lt_mul (by rwa [Nat.pow_succ, Nat.mul_comm] at hv)
    have hdigits := ih hq
    have hlast := (hexDigit_spec (Nat.mod_lt v (by decide : 16 > 0))).1
    unfold ofHexDigits at hdigits ⊢
    rw [hexDigits, List.foldlM_append, hdigits]
    simp only [List.foldlM_cons, List.foldlM_nil, hlast, Option.map_some, Option.bind_eq_bind,
      Option.bind_some, Option.pure_def]
    rw [Nat.div_add_mod]

theorem intBase16_hexDigits {k v : Nat} (hk : 0 < k) (hv : v < 16 ^ k) :
    intBase16 (hexDigits k v) = some v := by
  set h := hexDigits k v with hh
  have spec : ∀ c ∈ h, ∃ n < 16, c = hexDigit n := fun c hc => mem_hexDigits hc
  have hne : ∀ c ∈ h, c ≠ '+' ∧ c ≠ '_' ∧ c ≠ 'x' ∧ c ≠ 'X' := by
    intro c hc
    obtain ⟨n, hn, rfl⟩ := spec c hc
    obtain ⟨_, _, _, hplus, hunder, hx, hX, _⟩ := hexDigit_spec hn
    exact ⟨hplus, hunder, hx, hX⟩
  have hmap : h.map toAscii = h := by
    refine (List.map_congr_left fun c hc => ?_).trans (List.map_id h)
    obtain ⟨n, hn, rfl⟩ := spec c hc
    exact (hexDigit_spec hn).2.1
  have hstrip : stripChars isAsciiSpace h = h := by
    refine stripChars_eq_self fun c hc => ?_
    obtain ⟨n, hn, rfl⟩ := spec c hc
    exact (hexDigit_spec hn).2.2.1
  have hsign : dropSign h = h := dropSign_eq_self fun hc => (hne _ hc).1 rfl
  have hbase : dropBase h = h :=
    dropBase_eq_self (fun hc => (hne _ hc).2.2.1 rfl) fun hc => (hne _ hc).2.2.2 rfl
  have hgroups : h.splitOn '_' = [h] :=
    List.splitOnP_eq_singleton fun c hc => by simpa using (hne c hc).2.1
  have hpos : h ≠ [] := by
    intro hnil
    have hlen := length_hexDigits k v
    rw [← hh, hnil] at hlen
    simp at hlen
    omega
  unfold intBase16
  rw [hmap, hstrip, hsign, hbase, hgroups]
  simp only [List.any_cons, List.any_nil, Bool.or_false, List.isEmpty_iff, hpos, if_false,
    List.flatten_cons, List.flatten_nil, List.append_nil]
  exact ofHexDigits_hexDigits hv

theorem mem_chars {u : Uuid} {c : Char} (h : c ∈ u.chars) : c = '-' ∨ ∃ n < 16, c = hexDigit n := by
  by_cases hc : c = '-'
  · exact .inl hc
  · refine .inr (mem_hexDigits (k := 32) (v := u.int) ?_)
    rw [← filter_chars]
    exact List.mem_filter.mpr ⟨h, by simpa using hc⟩

/-- There is nothing to strip from the canonical text. -/
theorem strip_str (u : Uuid) : strip u.str = u.str := by
  have hdigits : ∀ a : Fin 16, isSpace (hexDigit a) = false := by decide
  have hspace : ∀ c ∈ u.chars, isSpace c = false := by
    intro c hc
    rcases mem_chars hc with rfl | ⟨n, hn, rfl⟩
    · decide
    · exact hdigits ⟨n, hn⟩
  rw [strip, str, String.toList_ofList, stripChars_eq_self hspace]

theorem hasNul_str (u : Uuid) : hasNul u.str = false := by
  have hdigits : ∀ a : Fin 16, hexDigit a ≠ '\x00' := by decide
  rw [Bool.eq_false_iff]
  intro hnul
  rw [hasNul, str, String.toList_ofList, List.contains_iff_mem] at hnul
  rcases mem_chars hnul with hdash | ⟨n, hn, hdigit⟩
  · exact absurd hdash (by decide)
  · exact hdigits ⟨n, hn⟩ hdigit.symm

theorem str_ne_empty (u : Uuid) : u.str ≠ "" := by
  intro h
  have hchars : u.chars = [] := by
    rw [← String.toList_ofList (l := u.chars)]
    exact congrArg String.toList h
  have hdigits := congrArg List.length (filter_chars u)
  rw [hchars, length_hexDigits] at hdigits
  cases hdigits

/-- The canonical text is read back. -/
theorem ofText_str (u : Uuid) : ofText u.str = some u := by
  have hne : ∀ c ∈ u.chars, c ≠ 'u' ∧ c ≠ '\x7b' ∧ c ≠ '\x7d' := by
    intro c hc
    rcases mem_chars hc with rfl | ⟨n, hn, rfl⟩
    · decide
    · obtain ⟨_, _, _, _, _, _, _, hu, hopen, hclose⟩ := hexDigit_spec hn
      exact ⟨hu, hopen, hclose⟩
  have hu : 'u' ∉ u.chars := fun h => (hne _ h).1 rfl
  have hstrip : stripChars (fun c => c == '\x7b' || c == '\x7d') u.chars = u.chars :=
    stripChars_eq_self fun c hc => by simp [(hne c hc).2]
  have hpow : (2 : Nat) ^ 128 = 16 ^ 32 := by decide
  unfold ofText
  rw [show u.str.toList = u.chars from String.toList_ofList ..,
    show "urn:".toList = 'u' :: "rn:".toList from rfl,
    show "uuid:".toList = 'u' :: "uid:".toList from rfl]
  simp only [removeFrom_eq_self hu, hstrip, filter_chars, length_hexDigits, ne_eq, not_true,
    if_false, intBase16_hexDigits (by decide : 0 < 32) (hpow ▸ u.int_lt), Option.bind_some]
  rw [dif_pos u.int_lt]

end Uuid

end Valor.Python
