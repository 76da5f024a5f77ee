import Mathlib.Data.List.Basic
/-
  Go's strings.TrimSpace and unicode.IsSpace.

  A Go string is a string of bytes.  Every string these functions meet here is valid UTF-8, so it
  is a Lean `String`: its runes are its characters, and Go's `len` is its UTF-8 size.  On valid
  UTF-8, TrimSpace's ASCII fast path and its Unicode fallback agree: it drops the leading and the
  trailing runes that unicode.IsSpace accepts.  Padding of white space around a string that
  neither starts nor ends with white space is exactly what TrimSpace removes
  (`toList_TrimSpace_pad`).
-/

namespace GoStrings

/-- unicode.IsSpace: in Latin-1, `\t \n \v \f \r`, space, U+0085 (NEL) and U+00A0 (NBSP); above
    it, the White_Space characters. -/
def IsSpace (c : Char) : Bool :=
  if c.toNat ≤ 0xFF then
    c.toNat == 0x09 || c.toNat == 0x0A || c.toNat == 0x0B || c.toNat == 0x0C || c.toNat == 0x0D ||
      c.toNat == 0x20 || c.toNat == 0x85 || c.toNat == 0xA0
  else
    c.toNat == 0x1680 || (0x2000 ≤ c.toNat && c.toNat ≤ 0x200A) || c.toNat == 0x2028 ||
      c.toNat == 0x2029 || c.toNat == 0x202F || c.toNat == 0x205F || c.toNat == 0x3000

/-- strings.TrimSpace: `s` without its leading and trailing white space. -/
def TrimSpace (s : String) : String :=
  String.ofList ((s.toList.dropWhile IsSpace).reverse.dropWhile IsSpace).reverse

/-- A character between two visible ASCII characters (`!` to `~`) is not white space. -/
theorem IsSpace_of_visible {lo hi c : Char} (hlo : '!' ≤ lo) (hhi : hi ≤ '~')
    (h : lo ≤ c ∧ c ≤ hi) : IsSpace c = false := by
  have h1 : '!'.toNat ≤ lo.toNat := hlo
  have h2 : lo.toNat ≤ c.toNat := h.1
  have h3 : c.toNat ≤ hi.toNat := h.2
  have h4 : hi.toNat ≤ '~'.toNat := hhi
  simp only [Char.reduceToNat] at h1 h4
  simp only [IsSpace, if_pos (show c.toNat ≤ 0xFF by omega), Bool.or_eq_false_iff,
    beq_eq_false_iff_ne]
  omega

section DropWhile

variable {α : Type} {p : α → Bool}

/-- A prefix of elements with `p` is dropped, up to an element without it. -/
theorem dropWhile_append_of_all {pre l : List α} (hpre : ∀ a ∈ pre, p a = true)
    (hl : ∀ a, l.head? = some a → p a = false) : (pre ++ l).dropWhile p = l := by
  induction pre with
  | nil =>
    cases l with
    | nil => rfl
    | cons a l => rw [List.nil_append, List.dropWhile_cons, if_neg (by rw [hl a rfl]; decide)]
  | cons a pre ih =>
    rw [List.cons_append, List.dropWhile_cons, if_pos (hpre a List.mem_cons_self)]
    exact ih fun b hb => hpre b (List.mem_cons_of_mem a hb)

/-- A list of elements with `p` is dropped whole. -/
theorem dropWhile_eq_nil_of_all {l : List α} (hl : ∀ a ∈ l, p a = true) : l.dropWhile p = [] := by
  simpa using dropWhile_append_of_all (l := []) hl (fun _ h => by cases h)

end DropWhile

/-- The characters TrimSpace leaves. -/
theorem toList_TrimSpace (s : String) :
    (TrimSpace s).toList = ((s.toList.dropWhile IsSpace).reverse.dropWhile IsSpace).reverse := by
  rw [TrimSpace, String.toList_ofList]

/-- **TrimSpace removes white space padding**: around a string that neither starts nor ends with
    white space, it gives that string back. -/
theorem toList_TrimSpace_pad {pre s post : List Char} (hpre : ∀ c ∈ pre, IsSpace c = true)
    (hpost : ∀ c ∈ post, IsSpace c = true) (hhead : ∀ c, s.head? = some c → IsSpace c = false)
    (hlast : ∀ c, s.getLast? = some c → IsSpace c = false) :
    (TrimSpace (String.ofList (pre ++ s ++ post))).toList = s := by
  rw [toList_TrimSpace, String.toList_ofList]
  cases s with
  | nil =>
    -- nothing but white space
    rw [List.append_nil, dropWhile_eq_nil_of_all (fun c hc => (List.mem_append.mp hc).elim
      (hpre c) (hpost c))]
    rfl
  | cons c s =>
    -- the leading padding goes first, then the reversed trailing padding
    have hfront : (pre ++ (c :: s) ++ post).dropWhile IsSpace = (c :: s) ++ post := by
      rw [List.append_assoc]
      exact dropWhile_append_of_all hpre fun a ha => hhead a (by simpa using ha)
    have hback : (post.reverse ++ (c :: s).reverse).dropWhile IsSpace = (c :: s).reverse :=
      dropWhile_append_of_all (fun a ha => hpost a (List.mem_reverse.mp ha))
        fun a ha => hlast a (by rw [List.getLast?_eq_head?_reverse]; exact ha)
    rw [hfront, List.reverse_append, hback, List.reverse_reverse]

end GoStrings
