import Mathlib.Algebra.Group.Nat.Defs
import Mathlib.Data.List.Basic
import Mathlib.Data.List.Induction
import Mathlib.Data.Fin.Basic

/-!
# IP addresses and their texts

Addresses are numbers of 32 and of 128 bits, and a block of addresses is given by its first bits
(`InBlock`). `Ipv4.chars` and `Ipv6.chars` are the texts that the URL standard serializes them to:
dotted decimal, and lowercase hexadecimal pieces of which the first longest run of two or more
zeros is compressed.

The rules a development uses by name: `Ipv4.splitOn_chars` reads the octets off the text,
`Ipv6.chars_cases` and `Ipv6.mem_chars` say how the text of an IPv6 address starts and what it
consists of, `Ipv6.chars_eq_loopback_iff` and `Ipv6.chars_ne_full` say which address has the text of
the loopback address, and `toDigits_piece` lists the digits of a piece.
-/

namespace InvoiceFi

/-- The addresses of `width` bits that agree with `base` in the first `length` bits. -/
def InBlock (width base length address : Nat) : Prop :=
  address / 2 ^ (width - length) = base / 2 ^ (width - length)

instance (width base length address : Nat) : Decidable (InBlock width base length address) :=
  inferInstanceAs (Decidable (_ = _))

/-! ## IPv4 -/

/-- An IPv4 address. -/
abbrev Ipv4 := Fin (2 ^ 32)

namespace Ipv4

/-- The address of four octets. -/
def ofOctets (a b c d : Nat) : Nat := ((a * 2 ^ 8 + b) * 2 ^ 8 + c) * 2 ^ 8 + d

def octets (address : Ipv4) : List Nat :=
  [address.val / 2 ^ 24, address.val / 2 ^ 16 % 2 ^ 8, address.val / 2 ^ 8 % 2 ^ 8,
    address.val % 2 ^ 8]

/-- The dotted decimal text. -/
def chars (address : Ipv4) : List Char :=
  ['.'].intercalate (address.octets.map (Nat.toDigits 10))

theorem octet_lt {address : Ipv4} {octet : Nat} (h : octet ∈ address.octets) : octet < 2 ^ 8 := by
  have hlt := address.isLt
  simp only [octets, List.mem_cons, List.not_mem_nil, or_false] at h
  omega

/-- The text splits at its dots into the octets. -/
theorem splitOn_chars (address : Ipv4) :
    address.chars.splitOn '.' = address.octets.map (Nat.toDigits 10) := by
  refine List.splitOn_intercalate '.' (fun digits hdigits hdot => ?_) (List.cons_ne_nil _ _)
  obtain ⟨octet, -, rfl⟩ := List.mem_map.1 hdigits
  exact absurd (Nat.isDigit_of_mem_toDigits (by decide) (by decide) hdot) (by decide)

end Ipv4

/-! ## Pieces of IPv6 addresses -/

/-- The digits of a piece of 16 bits: one to four of them. -/
theorem toDigits_piece {n : Nat} (h : n < 2 ^ 16) :
    n < 16 ∧ Nat.toDigits 16 n = [n.digitChar] ∨
    (16 ≤ n ∧ n < 16 ^ 2) ∧ Nat.toDigits 16 n = [(n / 16).digitChar, (n % 16).digitChar] ∨
    (16 ^ 2 ≤ n ∧ n < 16 ^ 3) ∧ Nat.toDigits 16 n =
      [(n / 16 / 16).digitChar, (n / 16 % 16).digitChar, (n % 16).digitChar] ∨
    16 ^ 3 ≤ n ∧ Nat.toDigits 16 n = [(n / 16 / 16 / 16).digitChar, (n / 16 / 16 % 16).digitChar,
      (n / 16 % 16).digitChar, (n % 16).digitChar] := by
  have hstep : ∀ {m : Nat}, 16 ≤ m →
      Nat.toDigits 16 m = Nat.toDigits 16 (m / 16) ++ [(m % 16).digitChar] :=
    fun hm => Nat.toDigits_of_base_le (by decide) hm
  rcases Nat.lt_or_ge n 16 with h1 | h1
  · exact .inl ⟨h1, Nat.toDigits_of_lt_base h1⟩
  · rcases Nat.lt_or_ge n (16 ^ 2) with h2 | h2
    · refine .inr (.inl ⟨⟨h1, h2⟩, ?_⟩)
      rw [hstep h1, Nat.toDigits_of_lt_base (by omega)]
      rfl
    · rcases Nat.lt_or_ge n (16 ^ 3) with h3 | h3
      · refine .inr (.inr (.inl ⟨⟨h2, h3⟩, ?_⟩))
        rw [hstep h1, hstep (by omega), Nat.toDigits_of_lt_base (by omega)]
        rfl
      · refine .inr (.inr (.inr ⟨h3, ?_⟩))
        rw [hstep h1, hstep (by omega), hstep (by omega), Nat.toDigits_of_lt_base (by omega)]
        rfl

/-- Digits are digits. -/
theorem mem_toDigits {c : Char} {n : Nat} (h : c ∈ Nat.toDigits 16 n) :
    ∃ m : Nat, c = m.digitChar := by
  induction n using Nat.strong_induction_on with
  | h n ih =>
    rcases Nat.lt_or_ge n 16 with hlt | hge
    · rw [Nat.toDigits_of_lt_base hlt] at h
      exact ⟨n, List.mem_singleton.1 h⟩
    · rw [Nat.toDigits_of_base_le (by decide) hge, List.mem_append] at h
      rcases h with h | h
      · exact ih (n / 16) (Nat.div_lt_self (by omega) (by decide)) h
      · exact ⟨n % 16, List.mem_singleton.1 h⟩

/-- What the search for the run of zeros to compress has found: the longest run that has ended,
and the one it is in. -/
structure ZeroRuns where
  longestIndex : Option Nat
  longestSize : Nat
  foundIndex : Option Nat
  foundSize : Nat

/-- The search at the next piece, with its index. -/
def ZeroRuns.next (runs : ZeroRuns) (piece : Nat × Nat) : ZeroRuns :=
  if piece.1 ≠ 0 then
    if runs.longestSize < runs.foundSize then ⟨runs.foundIndex, runs.foundSize, none, 0⟩
    else { runs with foundIndex := none, foundSize := 0 }
  else { runs with
    foundIndex := some (runs.foundIndex.getD piece.2)
    foundSize := runs.foundSize + 1 }

/-- The index of the first longest run of two or more zero pieces. -/
def compressedPieceIndex (pieces : List Nat) : Option Nat :=
  let runs := pieces.zipIdx.foldl ZeroRuns.next ⟨none, 1, none, 0⟩
  if runs.longestSize < runs.foundSize then runs.foundIndex else runs.longestIndex

/-- The serializer's loop from the piece with the index `i` of eight: `ignoreZero` while it skips a
compressed run. -/
def serializePieces (compress : Option Nat) (i : Nat) (ignoreZero : Bool) : List Nat → List Char
  | [] => []
  | piece :: pieces =>
    if ignoreZero = true ∧ piece = 0 then serializePieces compress (i + 1) true pieces
    else if compress = some i then
      (if i = 0 then [':', ':'] else [':']) ++ serializePieces compress (i + 1) true pieces
    else
      Nat.toDigits 16 piece ++
        ((if i ≠ 7 then [':'] else []) ++ serializePieces compress (i + 1) false pieces)

/-- The serializer writes digits and colons. -/
theorem mem_serializePieces {compress : Option Nat} {pieces : List Nat} {i : Nat}
    {ignoreZero : Bool} {c : Char} (h : c ∈ serializePieces compress i ignoreZero pieces) :
    c = ':' ∨ ∃ m : Nat, c = m.digitChar := by
  induction pieces generalizing i ignoreZero with
  | nil => cases h
  | cons piece pieces ih =>
    rw [serializePieces] at h
    split at h
    · exact ih h
    · split at h
      · rcases List.mem_append.1 h with h | h
        · split at h <;> simp_all
        · exact ih h
      · rcases List.mem_append.1 h with h | h
        · exact .inr (mem_toDigits h)
        · rcases List.mem_append.1 h with h | h
          · split at h <;> simp_all
          · exact ih h

/-- Only a run of zeros is compressed. -/
theorem compressedPieceIndex_zero {pieces : List Nat} {i : Nat}
    (h : compressedPieceIndex pieces = some i) : pieces[i]? = some 0 := by
  have hruns : ∀ index, ((pieces.zipIdx.foldl ZeroRuns.next ⟨none, 1, none, 0⟩).longestIndex =
        some index ∨
      (pieces.zipIdx.foldl ZeroRuns.next ⟨none, 1, none, 0⟩).foundIndex = some index) →
      pieces[index]? = some 0 := by
    refine List.foldlRecOn (motive := fun runs : ZeroRuns => ∀ index,
      (runs.longestIndex = some index ∨ runs.foundIndex = some index) →
        pieces[index]? = some 0) pieces.zipIdx _ ?_ fun runs ih piece hpiece index => ?_
    · rintro index (h | h) <;> cases h
    · unfold ZeroRuns.next
      split
      · split
        · rintro (h | h)
          · exact ih _ (.inr h)
          · cases h
        · rintro (h | h)
          · exact ih _ (.inl h)
          · cases h
      · next hzero =>
        rintro (h | h)
        · exact ih _ (.inl h)
        · cases hfound : runs.foundIndex with
          | none =>
            dsimp only at h
            rw [hfound, Option.getD_none, Option.some.injEq] at h
            rw [← h, List.mem_zipIdx_iff_getElem?.1 hpiece, not_not.1 hzero]
          | some found =>
            dsimp only at h
            rw [hfound, Option.getD_some] at h
            exact ih _ (.inr (hfound.trans h))
  unfold compressedPieceIndex at h
  dsimp only at h
  split at h
  · exact hruns _ (.inr h)
  · exact hruns _ (.inl h)

/-! ## IPv6 -/

/-- An IPv6 address. -/
abbrev Ipv6 := Fin (2 ^ 128)

namespace Ipv6

def pieces (address : Ipv6) : List Nat :=
  [address.val / 2 ^ 112, address.val / 2 ^ 96 % 2 ^ 16, address.val / 2 ^ 80 % 2 ^ 16,
    address.val / 2 ^ 64 % 2 ^ 16, address.val / 2 ^ 48 % 2 ^ 16, address.val / 2 ^ 32 % 2 ^ 16,
    address.val / 2 ^ 16 % 2 ^ 16, address.val % 2 ^ 16]

/-- The compressed text, without brackets. -/
def chars (address : Ipv6) : List Char :=
  serializePieces (compressedPieceIndex address.pieces) 0 false address.pieces

/-- The text consists of digits and colons. -/
theorem mem_chars {address : Ipv6} {c : Char} (h : c ∈ address.chars) :
    c = ':' ∨ ∃ m : Nat, c = m.digitChar := mem_serializePieces h

/-- The text starts with two colons, for an address that starts with a zero piece, or with the first
piece and a colon. -/
theorem chars_cases (address : Ipv6) :
    (address.val / 2 ^ 112 = 0 ∧
      address.chars = ':' :: ':' :: serializePieces (some 0) 1 true address.pieces.tail) ∨
    ∃ rest, address.chars = Nat.toDigits 16 (address.val / 2 ^ 112) ++ ':' :: rest := by
  have hloop : ∀ (compress : Option Nat) (piece : Nat) (rest : List Nat),
      serializePieces compress 0 false (piece :: rest) =
        if compress = some 0 then [':', ':'] ++ serializePieces compress 1 true rest
        else Nat.toDigits 16 piece ++ ([':'] ++ serializePieces compress 1 false rest) :=
    fun compress piece rest => by simp [serializePieces]
  unfold chars
  by_cases hzero : compressedPieceIndex address.pieces = some 0
  · have hfirst := compressedPieceIndex_zero hzero
    rw [pieces, List.getElem?_cons_zero, Option.some.injEq] at hfirst
    rw [hzero, pieces, hloop, if_pos rfl]
    exact .inl ⟨hfirst, rfl⟩
  · have hfirst := hloop (compressedPieceIndex address.pieces) (address.val / 2 ^ 112)
      address.pieces.tail
    rw [if_neg hzero] at hfirst
    exact .inr ⟨_, hfirst⟩

/-- A text that starts with a piece does not start with a colon. -/
theorem ne_of_head (address : Ipv6) (rest : List Char) :
    Nat.toDigits 16 (address.val / 2 ^ 112) ++ ':' :: rest ≠ [':', ':', '1'] := by
  have hlt : address.val / 2 ^ 112 < 2 ^ 16 := by
    have := address.isLt
    omega
  have hdigit : ∀ n : Nat, n.digitChar ≠ ':' := fun n => Nat.digitChar_ne ':' (by decide)
  rcases toDigits_piece hlt with ⟨-, h⟩ | ⟨-, h⟩ | ⟨-, h⟩ | ⟨-, h⟩ <;> rw [h] <;>
    exact fun heq => hdigit _ (List.cons.inj heq).1

/-- A number of one hexadecimal digit. -/
theorem lt_of_toDigits_eq {piece : Nat} {c : Char} (h : Nat.toDigits 16 piece = [c]) :
    piece < 16 := by
  have hlt := (Nat.length_toDigits_le_iff (b := 16) (k := 1) (n := piece) (by decide)
    (by decide)).1 (by rw [h]; exact le_rfl)
  omega

/-- While a run is skipped, what is left is a one only if it is zeros and a last one. -/
theorem serializePieces_one {i : Nat} {rest : List Nat} (hi : 1 ≤ i) (hlen : i + rest.length = 8)
    (h : serializePieces (some 0) i true rest = ['1']) :
    rest = List.replicate (rest.length - 1) 0 ++ [1] := by
  induction rest generalizing i with
  | nil => cases h
  | cons piece rest ih =>
    rw [serializePieces] at h
    by_cases hzero : piece = 0
    · rw [if_pos ⟨rfl, hzero⟩] at h
      rw [List.length_cons] at hlen
      have hrest := ih (i := i + 1) (by omega) (by omega) h
      cases rest with
      | nil => cases h
      | cons next rest =>
        rw [hzero, List.length_cons, Nat.add_sub_cancel]
        conv_lhs => rw [hrest]
        rfl
    · have hcompress : (some 0 : Option Nat) ≠ some i := by
        rintro ⟨⟩
        omega
      rw [if_neg (fun hignore => hzero hignore.2), if_neg hcompress] at h
      -- a digit has been written, so that it is the last one
      obtain ⟨hdigits, hrest⟩ := (List.append_eq_singleton_iff.1 h).resolve_left
        fun hnil => absurd hnil.1 Nat.toDigits_ne_nil
      cases rest with
      | cons next rest =>
        rw [List.length_cons, List.length_cons] at hlen
        rw [if_pos (by omega)] at hrest
        exact absurd hrest (List.cons_ne_nil _ _)
      | nil =>
        have hlt : piece < 16 := lt_of_toDigits_eq hdigits
        rw [Nat.toDigits_of_lt_base hlt, List.cons.injEq, Nat.digitChar_eq_one] at hdigits
        rw [hdigits.1]
        rfl

/-- Only the loopback address has its text. -/
theorem chars_eq_loopback_iff (address : Ipv6) :
    address.chars = [':', ':', '1'] ↔ address.val = 1 := by
  constructor
  · intro h
    rcases chars_cases address with ⟨hfirst, hchars⟩ | ⟨rest, hchars⟩
    · rw [hchars, List.cons_inj_right, List.cons_inj_right] at h
      have htail := serializePieces_one (le_refl 1) rfl h
      have hlt := address.isLt
      simp only [pieces, List.tail_cons, List.length_cons, List.length_nil, List.replicate,
        List.cons_append, List.nil_append, List.cons.injEq] at htail
      omega
    · rw [hchars] at h
      exact absurd h (ne_of_head address rest)
  · intro h
    obtain rfl : address = 1 := Fin.ext h
    decide

/-- A zero that is written is a zero piece. -/
theorem serializePieces_zero {compress : Option Nat} {i piece : Nat} {pieces : List Nat}
    {rest : List Char} (hi : i ≠ 7)
    (h : serializePieces compress i false (piece :: pieces) = '0' :: ':' :: rest) :
    piece = 0 ∧ serializePieces compress (i + 1) false pieces = rest := by
  rw [serializePieces, if_neg (fun hignore => Bool.false_ne_true hignore.1)] at h
  by_cases hcompress : compress = some i
  · rw [if_pos hcompress] at h
    -- the colon of a compressed run stands where the zero should
    split at h <;> exact absurd (List.cons.inj h).1 (by decide)
  · rw [if_neg hcompress, if_pos hi] at h
    have hcolon : ':' ∉ Nat.toDigits 16 piece := fun hmem => by
      obtain ⟨m, hm⟩ := mem_toDigits hmem
      exact Nat.digitChar_ne ':' (by decide) hm.symm
    have hsplit := congrArg (List.splitOn ':') h
    rw [List.singleton_append, List.splitOn_append_cons_self_of_not_mem hcolon] at hsplit
    have hno : ':' ∉ ['0'] := by decide
    have hzero : List.splitOn ':' (['0'] ++ ':' :: rest) = ['0'] :: rest.splitOn ':' :=
      List.splitOn_append_cons_self_of_not_mem hno rest
    have hdigits : Nat.toDigits 16 piece = ['0'] := (List.cons.inj (hsplit.trans hzero)).1
    rw [hdigits] at h
    have hlt : piece < 16 := lt_of_toDigits_eq hdigits
    rw [Nat.toDigits_of_lt_base hlt, List.cons.injEq, Nat.digitChar_eq_zero] at hdigits
    exact ⟨hdigits.1, (List.cons.inj (List.cons.inj h).2).2⟩

/-- A one that is written last is a last piece one. -/
theorem serializePieces_last {compress : Option Nat} {piece : Nat}
    (h : serializePieces compress 7 false [piece] = ['1']) : piece = 1 := by
  rw [serializePieces, if_neg (fun hignore => Bool.false_ne_true hignore.1)] at h
  by_cases hcompress : compress = some 7
  · rw [if_pos hcompress] at h
    exact absurd (List.cons.inj h).1 (by decide)
  · rw [if_neg hcompress] at h
    have hdigits : Nat.toDigits 16 piece = ['1'] := by simpa [serializePieces] using h
    have hlt : piece < 16 := lt_of_toDigits_eq hdigits
    rw [Nat.toDigits_of_lt_base hlt, List.cons.injEq, Nat.digitChar_eq_one] at hdigits
    exact hdigits.1

/-- The loopback address is not written in full. -/
theorem chars_ne_full (address : Ipv6) :
    address.chars ≠ ['0', ':', '0', ':', '0', ':', '0', ':', '0', ':', '0', ':', '0', ':', '1'] := by
  intro h
  have hfull := h
  unfold chars pieces at hfull
  generalize compressedPieceIndex _ = compress at hfull
  obtain ⟨h0, hfull⟩ := serializePieces_zero (by decide) hfull
  obtain ⟨h1, hfull⟩ := serializePieces_zero (by decide) hfull
  obtain ⟨h2, hfull⟩ := serializePieces_zero (by decide) hfull
  obtain ⟨h3, hfull⟩ := serializePieces_zero (by decide) hfull
  obtain ⟨h4, hfull⟩ := serializePieces_zero (by decide) hfull
  obtain ⟨h5, hfull⟩ := serializePieces_zero (by decide) hfull
  obtain ⟨h6, hfull⟩ := serializePieces_zero (by decide) hfull
  have h7 := serializePieces_last hfull
  -- seven zeros and a one are the loopback address, which has another text
  have hlt := address.isLt
  have hval : address.val = 1 := by omega
  rw [(chars_eq_loopback_iff address).2 hval] at h
  exact absurd h (by decide)

end Ipv6

end InvoiceFi
