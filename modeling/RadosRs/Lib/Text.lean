import Mathlib.Algebra.GroupWithZero.Nat
import Mathlib.Data.List.DropRight

/-!
# Text

A text is a list of characters.  The operations are the ones that the Rust
standard library has for `str`, as far as they are needed to take a line or a
value apart.  `Bare p s` says that there is nothing to trim off a text.
-/

namespace Text

variable {p : Char → Bool} {s : List Char}

/-- The characters with the Unicode property `White_Space`. -/
def isWhitespace (c : Char) : Bool :=
  let n := c.toNat
  (0x09 ≤ n && n ≤ 0x0d) || n == 0x20 || n == 0x85 || n == 0xa0 || n == 0x1680
    || (0x2000 ≤ n && n ≤ 0x200a) || n == 0x2028 || n == 0x2029 || n == 0x202f || n == 0x205f
    || n == 0x3000

/-- The number of bytes in UTF-8. -/
def utf8Length (s : List Char) : Nat := (s.map Char.utf8Size).sum

theorem utf8Length_eq_length (h : ∀ c ∈ s, c.utf8Size = 1) : utf8Length s = s.length := by
  induction s with
  | nil => rfl
  | cons c s ih =>
    rw [List.forall_mem_cons] at h
    rw [utf8Length, List.map_cons, List.sum_cons, h.1, List.length_cons, Nat.add_comm]
    exact congrArg (· + 1) (ih h.2)

/-! ## Trimming -/

def trimMatches (p : Char → Bool) (s : List Char) : List Char := (s.dropWhile p).rdropWhile p

def trim (s : List Char) : List Char := trimMatches isWhitespace s

/-- The text neither begins nor ends with one of the characters. -/
def Bare (p : Char → Bool) (s : List Char) : Prop :=
  (∀ c, s.head? = some c → p c = false) ∧ ∀ c, s.getLast? = some c → p c = false

instance (p : Char → Bool) (s : List Char) : Decidable (Bare p s) :=
  decidable_of_iff ((s.head?.all fun c => !p c) = true ∧ (s.getLast?.all fun c => !p c) = true)
    (by simp [Bare, Option.all_eq_true])

theorem trimMatches_eq_self (h : Bare p s) : trimMatches p s = s := by
  have front : s.dropWhile p = s := by
    cases s with
    | nil => rfl
    | cons c s => exact List.dropWhile_cons_of_neg (by simp [h.1 c rfl])
  rw [trimMatches, front, List.rdropWhile_eq_self_iff]
  intro nonempty
  rw [h.2 _ (List.getLast?_eq_some_getLast nonempty)]
  exact Bool.false_ne_true

theorem bare_trimMatches (p : Char → Bool) (s : List Char) : Bare p (trimMatches p s) := by
  have tail : (trimMatches p s) <+: s.dropWhile p := List.rdropWhile_prefix p (s.dropWhile p)
  constructor
  · intro c here
    have first : (s.dropWhile p).head? = some c := by
      obtain ⟨rest, whole⟩ := tail
      rw [← whole, List.head?_append, here]
      rfl
    simpa [first] using List.head?_dropWhile_not p s
  · intro c here
    have nonempty : trimMatches p s ≠ [] := by
      intro empty
      rw [empty] at here
      cases here
    have last := List.rdropWhile_last_not p (s.dropWhile p) nonempty
    rw [List.getLast?_eq_some_getLast nonempty] at here
    cases here
    exact Bool.eq_false_iff.mpr last

variable {c : Char}

/-- Only what is trimmed off is lost. -/
theorem mem_trimMatches (h : c ∈ s) (other : p c = false) : c ∈ trimMatches p s := by
  have front : c ∈ s.dropWhile p := by
    rw [← List.takeWhile_append_dropWhile (p := p) (l := s)] at h
    refine (List.mem_append.mp h).resolve_left fun mem => ?_
    rw [List.mem_takeWhile_imp mem] at other
    cases other
  rw [← List.rdropWhile_append_rtakeWhile (p := p) (l := s.dropWhile p)] at front
  refine (List.mem_append.mp front).resolve_right fun mem => ?_
  rw [List.mem_rtakeWhile_imp mem] at other
  cases other

theorem mem_trim (h : c ∈ s) (other : isWhitespace c = false) : c ∈ trim s :=
  mem_trimMatches h other

/-- What is trimmed off the end lies behind the last character that is kept. -/
theorem rdropWhile_append_cons (kept : p c = false) (front back : List Char) :
    ∃ more, (front ++ c :: back).rdropWhile p = front ++ c :: more := by
  induction back using List.reverseRecOn with
  | nil => exact ⟨[], List.rdropWhile_concat_neg _ _ _ (by simp [kept])⟩
  | append_singleton back last ih =>
    have snoc : front ++ c :: (back ++ [last]) = (front ++ c :: back) ++ [last] := by simp
    rw [snoc]
    by_cases dropped : p last = true
    · rwa [List.rdropWhile_concat_pos _ _ _ dropped]
    · exact ⟨back ++ [last], (List.rdropWhile_concat_neg _ _ _ dropped).trans snoc.symm⟩

/-- A text that begins with a character that is kept is only trimmed behind it. -/
theorem trimMatches_append_cons (kept : p c = false) {front : List Char}
    (first : ∀ c, front.head? = some c → p c = false) (back : List Char) :
    ∃ more, trimMatches p (front ++ c :: back) = front ++ c :: more := by
  have same : (front ++ c :: back).dropWhile p = front ++ c :: back := by
    cases front with
    | nil => exact List.dropWhile_cons_of_neg (by simp [kept])
    | cons c' front => exact List.dropWhile_cons_of_neg (by simp [first c' rfl])
  rw [trimMatches, same]
  exact rdropWhile_append_cons kept front back

/-! ## Parts of a text -/

/-- What follows the given beginning. -/
def afterLead (lead s : List Char) : Option (List Char) :=
  if lead.isPrefixOf s then some (s.drop lead.length) else none

/-- What stands before a last character. -/
def beforeLast (last : Char) (s : List Char) : Option (List Char) :=
  if s.getLast? = some last then some s.dropLast else none

/-- The parts before and after the first occurrence of a character. -/
def splitOnce (c : Char) (s : List Char) : Option (List Char × List Char) :=
  match s.dropWhile (· != c) with
  | [] => none
  | _ :: after => some (s.takeWhile (· != c), after)

theorem splitOnce_append {before after : List Char} (h : splitOnce c s = some (before, after))
    (more : List Char) : splitOnce c (s ++ more) = some (before, after ++ more) := by
  unfold splitOnce at h ⊢
  split at h
  · cases h
  rename_i first rest found
  cases h
  have inside : (s.takeWhile (· != c)).length ≠ s.length := by
    intro all
    have sizes := congrArg List.length (List.takeWhile_append_dropWhile (p := (· != c)) (l := s))
    rw [found, List.length_append, all, List.length_cons] at sizes
    omega
  rw [List.dropWhile_append, List.takeWhile_append, found, if_neg inside]
  rfl

/-- The parts before and after the last occurrence of a character. -/
def rsplitOnce (c : Char) (s : List Char) : Option (List Char × List Char) :=
  (splitOnce c s.reverse).map fun (after, before) => (before.reverse, after.reverse)

variable {sep : Char} {ls : List (List Char)}

/-- Texts that are joined by a separator come apart again. -/
theorem splitOnP_intercalate (hsep : p sep = true) (nonempty : ls ≠ [])
    (free : ∀ l ∈ ls, ∀ c ∈ l, p c = false) : ([sep].intercalate ls).splitOnP p = ls := by
  induction ls with
  | nil => exact absurd rfl nonempty
  | cons l ls ih =>
    have here := free l (.head _)
    cases ls with
    | nil =>
      rw [List.intercalate_singleton]
      exact List.splitOnP_eq_singleton here
    | cons l' ls =>
      rw [List.intercalate_cons_cons, List.append_assoc, List.singleton_append,
        List.splitOnP_append_cons_of_forall_mem here sep hsep,
        ih (List.cons_ne_nil _ _) fun l mem => free l (.tail _ mem)]

theorem mem_intercalate (h : c ∈ [sep].intercalate ls) : c = sep ∨ ∃ l ∈ ls, c ∈ l := by
  induction ls with
  | nil => cases h
  | cons l ls ih =>
    cases ls with
    | nil =>
      rw [List.intercalate_singleton] at h
      exact .inr ⟨l, .head _, h⟩
    | cons l' ls =>
      rw [List.intercalate_cons_cons, List.append_assoc, List.mem_append] at h
      obtain here | later := h
      · exact .inr ⟨l, .head _, here⟩
      obtain same | later := List.mem_cons.mp later
      · exact .inl same
      · exact (ih later).imp_right fun ⟨l, mem, here⟩ => ⟨l, .tail _ mem, here⟩

theorem mem_intercalate_of_mem {l : List Char} (mem : l ∈ ls) (h : c ∈ l) :
    c ∈ [sep].intercalate ls := by
  induction ls with
  | nil => cases mem
  | cons l' ls ih =>
    cases ls with
    | nil =>
      rw [List.mem_singleton.mp mem] at h
      rwa [List.intercalate_singleton]
    | cons l'' ls =>
      rw [List.intercalate_cons_cons, List.append_assoc, List.mem_append]
      obtain rfl | mem := List.mem_cons.mp mem
      · exact .inl h
      · exact .inr (.tail _ (ih mem))

/-- Texts that are joined begin with the first of them and end with the last. -/
theorem bare_intercalate (nonempty : ∀ l ∈ ls, l ≠ []) (each : ∀ l ∈ ls, Bare p l) :
    Bare p ([sep].intercalate ls) := by
  have both : Bare p ([sep].intercalate ls) ∧ (ls ≠ [] → [sep].intercalate ls ≠ []) := by
    induction ls with
    | nil => exact ⟨⟨nofun, nofun⟩, fun h => absurd rfl h⟩
    | cons l ls ih =>
      have here := each l (.head _)
      have front := nonempty l (.head _)
      cases ls with
      | nil =>
        rw [List.intercalate_singleton]
        exact ⟨here, fun _ => front⟩
      | cons l' ls =>
        obtain ⟨rest, more⟩ := ih (fun l mem => nonempty l (.tail _ mem))
          fun l mem => each l (.tail _ mem)
        rw [List.intercalate_cons_cons, List.append_assoc]
        refine ⟨⟨fun c first => here.1 c ?_, fun c last => rest.2 c ?_⟩, fun _ => ?_⟩
        · rwa [List.head?_append_of_ne_nil _ front] at first
        · rwa [← List.append_assoc,
            List.getLast?_append_of_ne_nil _ (more (List.cons_ne_nil _ _))] at last
        · exact List.append_ne_nil_of_left_ne_nil front _
  exact both.1

/-! ## Numbers -/

/-- A number in decimal digits, with a plus sign if there is one, up to a bound. -/
def parseUnsigned (bound : Nat) (s : List Char) : Option Nat :=
  let digits := match s with
    | '+' :: rest => rest
    | _ => s
  if digits.isEmpty then none
  else digits.foldlM
    (fun n c =>
      if c.isDigit ∧ n * 10 + (c.toNat - '0'.toNat) ≤ bound then
        some (n * 10 + (c.toNat - '0'.toNat))
      else none)
    0

/-! ## Lines -/

/-- A line without the carriage return at its end. -/
def withoutReturn (line : List Char) : List Char :=
  if line.getLast? = some '\r' then line.dropLast else line

/-- The lines of a text.  What follows the last line feed is a line if it is not empty. -/
def lines (s : List Char) : List (List Char) :=
  let pieces := s.splitOnP (· == '\n')
  pieces.dropLast.map withoutReturn ++ (pieces.getLast?.toList.filter fun last => !last.isEmpty)

/-- The value between two quotation marks of the same kind. -/
def unquote (value : List Char) : List Char :=
  if 2 ≤ value.length ∧ (value.head? = some '\'' ∧ value.getLast? = some '\''
      ∨ value.head? = some '"' ∧ value.getLast? = some '"') then
    (value.drop 1).dropLast
  else value

/-- The part of a line before its comment, if it has one.  `starts` says which characters start a
comment, by the character before them; between quotation marks there is none. -/
def beforeComment (starts : Option Char → Char → Bool) :
    (quote previous : Option Char) → List Char → Option (List Char)
  | _, _, [] => none
  | quote, previous, c :: rest =>
    if (c = '\'' ∨ c = '"') ∧ quote = none then
      (beforeComment starts (some c) (some c) rest).map (c :: ·)
    else if (c = '\'' ∨ c = '"') ∧ quote = some c then
      (beforeComment starts none (some c) rest).map (c :: ·)
    else if quote = none ∧ starts previous c then some []
    else (beforeComment starts quote (some c) rest).map (c :: ·)

def stripCommentWith (starts : Option Char → Char → Bool) (line : List Char) : List Char :=
  match beforeComment starts none none line with
  | some front => trim front
  | none => line

/-- Only quotation marks are lost. -/
theorem mem_unquote (h : c ∈ s) (single : c ≠ '\'') (double : c ≠ '"') : c ∈ unquote s := by
  unfold unquote
  split
  next quoted =>
    obtain ⟨two, ends⟩ := quoted
    cases s with
    | nil => cases h
    | cons first rest =>
      have nonempty : rest ≠ [] := by
        rintro rfl
        simp at two
      rw [List.head?_cons, List.getLast?_cons_of_ne_nil nonempty,
        List.getLast?_eq_some_getLast nonempty, Option.some.injEq, Option.some.injEq] at ends
      have inside : c ∈ rest := by
        obtain rfl | mem := List.mem_cons.mp h
        · exact absurd ends (by simp [single, double])
        · exact mem
      rw [← List.dropLast_append_getLast nonempty, List.mem_append, List.mem_singleton] at inside
      obtain mem | rfl := inside
      · exact mem
      · exact absurd ends (by simp [single, double])
  · exact h

/-! ## UTF-8 -/

def isContinuation (b : UInt8) : Bool := b &&& 0xc0 == 0x80

/-- The six bits of a continuation byte. -/
def tailBits (b : UInt8) : Nat := (b &&& 0x3f).toNat

/-- The text that the bytes encode, if they are well formed: no character is encoded in more
bytes than it needs, and there are no surrogates. -/
def decodeUtf8 : List UInt8 → Option (List Char)
  | [] => some []
  | b :: rest =>
    if b < 0x80 then (decodeUtf8 rest).map (Char.ofNat b.toNat :: ·)
    else if 0xc2 ≤ b ∧ b < 0xe0 then
      match rest with
      | c :: rest =>
        if isContinuation c then
          (decodeUtf8 rest).map (Char.ofNat ((b &&& 0x1f).toNat * 64 + tailBits c) :: ·)
        else none
      | _ => none
    else if 0xe0 ≤ b ∧ b < 0xf0 then
      match rest with
      | c :: d :: rest =>
        let n := ((b &&& 0x0f).toNat * 64 + tailBits c) * 64 + tailBits d
        if isContinuation c ∧ isContinuation d ∧ 0x800 ≤ n ∧ ¬ (0xd800 ≤ n ∧ n < 0xe000) then
          (decodeUtf8 rest).map (Char.ofNat n :: ·)
        else none
      | _ => none
    else if 0xf0 ≤ b ∧ b < 0xf5 then
      match rest with
      | c :: d :: e :: rest =>
        let n := (((b &&& 0x07).toNat * 64 + tailBits c) * 64 + tailBits d) * 64 + tailBits e
        if isContinuation c ∧ isContinuation d ∧ isContinuation e ∧ 0x10000 ≤ n
            ∧ n < 0x110000 then
          (decodeUtf8 rest).map (Char.ofNat n :: ·)
        else none
      | _ => none
    else none

end Text
