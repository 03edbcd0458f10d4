import RadosRs.Cephx.Keyring
import RadosRs.Config.Monitors

/-!
# The key of the configuration

`loadKeyring` checks a keyring with `Cephx.parseKeyring` and then looks for the
text of the key with a walk of its own, `encodedKeyFromKeyring`.  The two take
comments off a line in different ways: for the check every semicolon starts a
comment, and here only one that has white space before it, or nothing.  A line can
only become longer by that (`content_cases`).  If this happens to the header of the
section the key is not found, and if it happens to the key itself what is found is
not a key.  `keyring_key_found` says that these are the only cases.
-/

namespace RadosRs.Config

open Cephx Fallible Text

/-- A semicolon starts a comment at the beginning of a line and after white space. -/
def looseStarts (previous : Option Char) (c : Char) : Bool :=
  c == '#' || (c == ';' && previous.all isWhitespace)

def stripComment (line : List Char) : List Char := stripCommentWith looseStarts line

/-- What a line says here. -/
def looseContent (rawLine : List Char) : List Char := stripComment (trim rawLine)

/-- The first key in the section of the entity. -/
def findKey (entity : List Char) : («section» : List Char) → List (List Char) → Option (List Char)
  | _, [] => none
  | «section», rawLine :: rest =>
    let line := looseContent rawLine
    if line.isEmpty then findKey entity «section» rest
    else if line.head? = some '[' ∧ line.getLast? = some ']' then
      findKey entity (headerName line) rest
    else if «section» ≠ entity then findKey entity «section» rest
    else
      match splitOnce '=' line with
      | none => none
      | some (name, value) =>
        if trim name = "key".toList then some (unquote (trim value))
        else findKey entity «section» rest

def encodedKeyFromKeyring (data : List UInt8) (entity : List Char) : Option (List Char) := do
  let text ← decodeUtf8 data
  findKey entity [] (lines text)

def maxKeyBytes : Nat := 65536
def maxKeyringBytes : Nat := 1048576

/-- The key of an entity in a file with these bytes. -/
def loadKeyring (data : List UInt8) (entity : List Char) : Except ConfigError (List Char) :=
  let entity := if entity.isEmpty then "client.admin".toList else entity
  if data.length > maxKeyringBytes then .error (.invalid "Config::load_keyring")
  else
    match parseKeyring data entity maxKeyringBytes with
    | .error _ => .error (.invalid "Config::load_keyring")
    | .ok _ =>
      match encodedKeyFromKeyring data entity with
      | none => .error (.invalid "Config::load_keyring")
      | some encoded =>
        if encoded.isEmpty || utf8Length encoded > maxKeyBytes then
          .error (.invalid "SecretKey::new")
        else .ok encoded

/-! ## Two kinds of comments -/

/-- A comment that only the first walk sees: a semicolon right after a character. -/
structure Cut (previous : Option Char) (s front more : List Char) : Prop where
  whole : s = front ++ ';' :: more
  last : ∃ c, front.getLast?.or previous = some c ∧ isWhitespace c = false

variable {previous : Option Char}

theorem strictStarts_of_loose {c : Char} (h : looseStarts previous c = true) :
    strictStarts previous c = true := by
  simp only [looseStarts, strictStarts, Bool.or_eq_true, Bool.and_eq_true] at h ⊢
  exact h.imp_right And.left

theorem starts_cases {c : Char} (strict : strictStarts previous c = true)
    (loose : ¬ looseStarts previous c = true) :
    c = ';' ∧ ∃ last, previous = some last ∧ isWhitespace last = false := by
  simp only [looseStarts, strictStarts, Bool.or_eq_true, Bool.and_eq_true, beq_iff_eq, not_or,
    not_and] at strict loose
  obtain rfl := strict.resolve_left loose.1
  cases previous with
  | none => exact absurd rfl (loose.2 rfl)
  | some last => exact ⟨rfl, last, rfl, Bool.eq_false_iff.mpr (loose.2 rfl)⟩

/-- The two walks stop at the same place, or the first one stops at a semicolon that the second
one takes for a part of the line. -/
theorem beforeComment_cases (quote previous : Option Char) (s : List Char) :
    beforeComment looseStarts quote previous s = beforeComment strictStarts quote previous s
      ∨ ∃ front more, Cut previous s front more
        ∧ beforeComment strictStarts quote previous s = some front
        ∧ (beforeComment looseStarts quote previous s = none
          ∨ ∃ more, beforeComment looseStarts quote previous s = some (front ++ ';' :: more)) := by
  induction s generalizing quote previous with
  | nil => exact .inl rfl
  | cons c rest ih =>
    -- the same character is kept by both
    have kept (quote' : Option Char) :
        (beforeComment looseStarts quote' (some c) rest).map (c :: ·)
          = (beforeComment strictStarts quote' (some c) rest).map (c :: ·)
        ∨ ∃ front more, Cut previous (c :: rest) front more
          ∧ (beforeComment strictStarts quote' (some c) rest).map (c :: ·) = some front
          ∧ ((beforeComment looseStarts quote' (some c) rest).map (c :: ·) = none
            ∨ ∃ more, (beforeComment looseStarts quote' (some c) rest).map (c :: ·)
              = some (front ++ ';' :: more)) := by
      obtain same | ⟨front, more, cut, strict, loose⟩ := ih quote' (some c)
      · exact .inl (congrArg _ same)
      refine .inr ⟨c :: front, more, ⟨?_, ?_⟩, ?_, ?_⟩
      · rw [cut.whole]
        rfl
      · obtain ⟨last, found, solid⟩ := cut.last
        refine ⟨last, ?_, solid⟩
        rw [List.getLast?_cons]
        cases tail : front.getLast? <;> simpa [tail] using found
      · rw [strict]
        rfl
      · obtain none | ⟨more, found⟩ := loose
        · exact .inl (by rw [none]; rfl)
        · exact .inr ⟨more, by rw [found]; rfl⟩
    rw [beforeComment, beforeComment]
    by_cases opens : (c = '\'' ∨ c = '"') ∧ quote = none
    · simp only [if_pos opens]
      exact kept (some c)
    by_cases closes : (c = '\'' ∨ c = '"') ∧ quote = some c
    · simp only [if_neg opens, if_pos closes]
      exact kept none
    by_cases strict : quote = none ∧ strictStarts previous c = true
    · by_cases loose : quote = none ∧ looseStarts previous c = true
      · simp only [if_neg opens, if_neg closes, if_pos strict, if_pos loose, true_or]
      · -- the first walk stops here, and the second one goes on
        obtain ⟨rfl, last, rfl, solid⟩ := starts_cases strict.2 fun h => loose ⟨strict.1, h⟩
        simp only [if_neg opens, if_neg closes, if_pos strict, if_neg loose]
        refine .inr ⟨[], rest, ⟨rfl, last, rfl, solid⟩, rfl, ?_⟩
        cases beforeComment looseStarts quote (some ';') rest with
        | none => exact .inl rfl
        | some more => exact .inr ⟨more, rfl⟩
    · have loose : ¬ (quote = none ∧ looseStarts previous c = true) := fun ⟨out, starts⟩ =>
        strict ⟨out, strictStarts_of_loose starts⟩
      simp only [if_neg opens, if_neg closes, if_neg strict, if_neg loose]
      exact kept quote

/-- A line says the same as for the check, or more. -/
theorem content_cases (raw : List Char) :
    looseContent raw = content raw
      ∨ content raw ≠ [] ∧ ∃ more, looseContent raw = content raw ++ ';' :: more := by
  unfold looseContent content stripComment Cephx.stripComment stripCommentWith
  have bare : Bare isWhitespace (trim raw) := bare_trimMatches isWhitespace raw
  obtain same | ⟨front, more, cut, strict, loose⟩ := beforeComment_cases none none (trim raw)
  · rw [same]
    exact .inl rfl
  obtain ⟨last, found, solid⟩ := cut.last
  rw [Option.or_none] at found
  have nonempty : front ≠ [] := by
    rintro rfl
    cases found
  have first : ∀ c, front.head? = some c → isWhitespace c = false := by
    intro c here
    refine bare.1 c ?_
    rw [cut.whole, List.head?_append_of_ne_nil _ nonempty, here]
  have kept : trim front = front := by
    refine trimMatches_eq_self ⟨first, fun c here => ?_⟩
    rw [found] at here
    cases here
    exact solid
  rw [strict]
  dsimp only
  rw [kept]
  refine .inr ⟨nonempty, ?_⟩
  obtain unseen | ⟨more', seen⟩ := loose
  · rw [unseen]
    exact ⟨more, cut.whole⟩
  · rw [seen]
    exact trimMatches_append_cons rfl first more'

/-! ## The walk to the key -/

section Walk

variable {entity «section» line value : List Char} {rest : List (List Char)}

/-- A line after which the section is not the one of the entity, if it has not been before. -/
def Passes (entity line : List Char) : Prop :=
  line.head? = some '[' → line.getLast? = some ']' → headerName line ≠ entity

variable (rest) in
theorem findKey_passes (h : Passes entity (looseContent line)) (out : «section» ≠ entity) :
    ∃ section', section' ≠ entity
      ∧ findKey entity «section» (line :: rest) = findKey entity section' rest := by
  rw [findKey]
  split
  · exact ⟨«section», out, rfl⟩
  split
  next header => exact ⟨_, h header.1 header.2, rfl⟩
  · exact ⟨«section», out, rfl⟩

variable (rest) in
theorem findKey_passes_all {lines : List (List Char)}
    (h : ∀ l ∈ lines, Passes entity (looseContent l)) (out : «section» ≠ entity) :
    ∃ section', section' ≠ entity
      ∧ findKey entity «section» (lines ++ rest) = findKey entity section' rest := by
  induction lines generalizing «section» with
  | nil => exact ⟨«section», out, rfl⟩
  | cons line lines ih =>
    rw [List.forall_mem_cons] at h
    obtain ⟨section₁, out₁, first⟩ := findKey_passes (lines ++ rest) h.1 out
    obtain ⟨section₂, out₂, more⟩ := ih h.2 out₁
    exact ⟨section₂, out₂, first.trans more⟩

/-- A header that goes on behind its bracket names no entity. -/
theorem passes_header (bracket : ']' ∉ entity) (header : Header line) (more : List Char) :
    Passes entity (line ++ ';' :: more) := by
  intro _ _ name
  obtain ⟨first, tail, rfl⟩ := List.exists_cons_of_ne_nil
    (show line ≠ [] from fun empty => by cases empty ▸ header.opens)
  cases header.opens
  have nonempty : tail ≠ [] := by
    rintro rfl
    cases header.closes
  have closes := header.closes
  rw [List.getLast?_cons_of_ne_nil nonempty] at closes
  have inside : ']' ∈ headerName ('[' :: tail ++ ';' :: more) := by
    refine mem_trim ?_ rfl
    rw [List.cons_append, List.drop_one, List.tail_cons,
      List.dropLast_append_of_ne_nil (List.cons_ne_nil _ _)]
    exact List.mem_append_left _ (List.mem_of_getLast? closes)
  exact bracket (name ▸ inside)

variable {name : List Char}

theorem passes_property (property : Property (content line) name value) :
    Passes entity (looseContent line) := by
  intro opens
  obtain same | ⟨nonempty, more, longer⟩ := content_cases line
  · exact absurd (same ▸ opens) property.inside
  · rw [longer, List.head?_append_of_ne_nil _ nonempty] at opens
    exact absurd opens property.inside

theorem passes_other (bracket : ']' ∉ entity) (other : Other entity (content line)) :
    Passes entity (looseContent line) := by
  cases other with
  | blank empty =>
    obtain same | ⟨nonempty, -⟩ := content_cases line
    · rw [same, empty]
      exact nofun
    · exact absurd empty nonempty
  | header header name =>
    obtain same | ⟨-, more, longer⟩ := content_cases line
    · rw [same]
      exact fun _ _ => name
    · rw [longer]
      exact passes_header bracket header more
  | property property => exact passes_property property

theorem findKey_header (header : Header (content line)) (name : headerName (content line) = entity)
    (same : looseContent line = content line) :
    findKey entity «section» (line :: rest) = findKey entity entity rest := by
  have nonempty : ¬ (content line).isEmpty = true := by
    intro empty
    rw [List.isEmpty_iff] at empty
    cases empty ▸ header.opens
  rw [findKey]
  rw [same, if_neg nonempty, if_pos ⟨header.opens, header.closes⟩, name]

/-- A line with a value has the same name here, and the same value or a longer one. -/
theorem property_loose (property : Property (content line) name value) :
    ∃ value', Property (looseContent line) name value'
      ∧ (looseContent line = content line ∧ value' = value
        ∨ looseContent line ≠ content line ∧ ';' ∈ value') := by
  obtain same | ⟨nonempty, more, longer⟩ := content_cases line
  · exact ⟨value, same ▸ property, .inl ⟨same, rfl⟩⟩
  refine ⟨value ++ ';' :: more, ⟨?_, ?_⟩, .inr ⟨?_, ?_⟩⟩
  · rw [longer, List.head?_append_of_ne_nil _ nonempty]
    exact property.inside
  · rw [longer]
    exact splitOnce_append property.parts _
  · rw [longer]
    simp
  · simp

theorem findKey_property (property : Property (looseContent line) name value) :
    findKey entity entity (line :: rest)
      = if trim name = "key".toList then some (unquote (trim value))
        else findKey entity entity rest := by
  have nonempty : ¬ (looseContent line).isEmpty = true := by
    intro empty
    rw [List.isEmpty_iff] at empty
    cases empty ▸ property.parts
  rw [findKey]
  rw [if_neg nonempty, if_neg fun h => property.inside h.1, if_neg (not_not.mpr rfl),
    property.parts]

theorem findKey_keyless {lines : List (List Char)} (h : ∀ l ∈ lines, Keyless (content l)) :
    findKey entity entity (lines ++ rest) = findKey entity entity rest := by
  induction lines with
  | nil => rfl
  | cons line lines ih =>
    rw [List.forall_mem_cons] at h
    refine Eq.trans ?_ (ih h.2)
    cases h.1 with
    | blank empty =>
      have blank : looseContent line = [] := by
        obtain same | ⟨nonempty, -⟩ := content_cases line
        · exact same.trans empty
        · exact absurd empty nonempty
      rw [List.cons_append, findKey, blank]
      rfl
    | property property other =>
      obtain ⟨value', here, -⟩ := property_loose property
      rw [List.cons_append, findKey_property here, if_neg other]

end Walk

/-! ## Keyrings whose key is found -/

/-- The line begins the section of the entity. -/
def begins (entity line : List Char) : Bool :=
  (content line).head? == some '[' && headerName (content line) == entity

/-- The line has a key. -/
def hasKey (line : List Char) : Bool :=
  (content line).head? != some '['
    && (splitOnce '=' (content line)).any fun (name, _) => trim name == "key".toList

/-- The lines of the section of the entity, from its header on. -/
def sectionOf (entity : List Char) (lines : List (List Char)) : List (List Char) :=
  match lines.dropWhile fun line => !begins entity line with
  | [] => []
  | header :: rest => header :: rest.takeWhile fun line => (content line).head? != some '['

/-- In the section of the entity, no comment is attached to the header or to a key. -/
def Tidy (entity : List Char) (lines : List (List Char)) : Prop :=
  ∀ line ∈ sectionOf entity lines, begins entity line = true ∨ hasKey line = true →
    looseContent line = content line

instance (entity : List Char) (lines : List (List Char)) : Decidable (Tidy entity lines) :=
  inferInstanceAs (Decidable (∀ line ∈ sectionOf entity lines, _))

variable {line : List Char}

theorem hasKey_iff : hasKey line = true ↔ ∃ value, KeyLine (content line) value := by
  rw [hasKey, Bool.and_eq_true, bne_iff_ne, Option.any_eq_true]
  constructor
  · rintro ⟨inside, ⟨name, value⟩, parts, named⟩
    exact ⟨value, name, ⟨inside, parts⟩, beq_iff_eq.mp named⟩
  · rintro ⟨value, name, property, named⟩
    exact ⟨property.inside, (name, value), property.parts, beq_iff_eq.mpr named⟩

variable {entity : List Char}

theorem begins_of_other (other : Other entity (content line)) : begins entity line = false := by
  rw [begins, Bool.and_eq_false_iff]
  cases other with
  | blank empty =>
    rw [empty]
    exact .inl rfl
  | header header name => exact .inr (beq_eq_false_iff_ne.mpr name)
  | property property => exact .inl (beq_eq_false_iff_ne.mpr property.inside)

theorem inside_of_keyless (h : Keyless (content line)) :
    (content line).head? ≠ some '[' := by
  cases h with
  | blank empty =>
    rw [empty]
    exact nofun
  | property property => exact property.inside

theorem hasKey_of_keyless (h : Keyless (content line)) : ¬ hasKey line = true := by
  rw [hasKey_iff]
  rintro ⟨value, name, key, named⟩
  cases h with
  | blank empty => cases empty ▸ key.parts
  | property property other =>
    cases property.parts.symm.trans key.parts
    exact other named

theorem sectionOf_accepted {lines : List (List Char)} (a : Accepted entity lines) :
    sectionOf entity lines = a.header :: (a.middle ++ a.line ::
      a.rest.takeWhile fun line => (content line).head? != some '[') := by
  obtain ⟨before, header, middle, line, value, rest, rfl, others, opens, name, keyless,
    ⟨_, property, -⟩, -, -⟩ := a
  have starts : begins entity header = true := by
    rw [begins, opens.opens, name]
    simp
  have skipped : ∀ l ∈ before, (!begins entity l) = true := fun l mem => by
    rw [begins_of_other (others l mem)]
    rfl
  rw [sectionOf, List.dropWhile_append_of_pos skipped, List.dropWhile_cons_of_neg (by simp [starts])]
  dsimp only
  have passed : ((content line).head? != some '[') = true := bne_iff_ne.mpr property.inside
  rw [List.takeWhile_append_of_pos fun l mem => bne_iff_ne.mpr (inside_of_keyless (keyless l mem)),
    List.takeWhile_cons, if_pos passed]

/-- The header of the section and its one key decide. -/
theorem tidy_accepted {lines : List (List Char)} (a : Accepted entity lines) :
    Tidy entity lines
      ↔ looseContent a.header = content a.header ∧ looseContent a.line = content a.line := by
  rw [Tidy, sectionOf_accepted a]
  simp only [List.forall_mem_cons, List.forall_mem_append]
  have starts : begins entity a.header = true := by
    rw [begins, a.begins.opens, a.name]
    simp
  have key : hasKey a.line = true := hasKey_iff.mpr ⟨a.value, a.key⟩
  constructor
  · rintro ⟨header, -, line, -⟩
    exact ⟨header (.inl starts), line (.inr key)⟩
  rintro ⟨header, line⟩
  refine ⟨fun _ => header, fun l mem h => ?_, fun _ => line, fun l mem h => ?_⟩
  · have inside := inside_of_keyless (a.keyless l mem)
    obtain opens | found := h
    · rw [begins, Bool.and_eq_true, beq_iff_eq] at opens
      exact absurd opens.1 inside
    · exact absurd found (hasKey_of_keyless (a.keyless l mem))
  have inside : (content l).head? ≠ some '[' := by
    simpa using List.mem_takeWhile_imp mem
  obtain opens | found := h
  · rw [begins, Bool.and_eq_true, beq_iff_eq] at opens
    exact absurd opens.1 inside
  · obtain ⟨value, found⟩ := hasKey_iff.mp found
    exact absurd found (a.single l mem value)

/-- What the walk finds. -/
theorem findKey_accepted {lines : List (List Char)} (a : Accepted entity lines)
    (valid : validClientEntity entity = true) :
    Tidy entity lines ∧ findKey entity [] lines = some (unquote (trim a.value))
      ∨ ¬ Tidy entity lines ∧ ∀ key, findKey entity [] lines = some key → ';' ∈ key := by
  rw [tidy_accepted a]
  obtain ⟨bracket, nonempty⟩ := validClientEntity_bracket valid
  obtain ⟨section', out, before⟩ := findKey_passes_all
    (a.header :: (a.middle ++ a.line :: a.rest))
    (fun l mem => passes_other bracket (a.others l mem)) nonempty.symm
  rw [← a.whole] at before
  rw [before]
  obtain ⟨name, property, named⟩ := a.key
  by_cases header : looseContent a.header = content a.header
  · rw [findKey_header a.begins a.name header, findKey_keyless a.keyless]
    obtain ⟨value', here, ⟨same, rfl⟩ | ⟨longer, semicolon⟩⟩ := property_loose property
    · rw [findKey_property here, if_pos named]
      exact .inl ⟨⟨header, same⟩, rfl⟩
    rw [findKey_property here, if_pos named]
    refine .inr ⟨fun h => longer h.2, fun key found => ?_⟩
    cases found
    exact mem_unquote (mem_trim semicolon rfl) (by decide) (by decide)
  · right
    refine ⟨fun h => header h.1, fun key found => ?_⟩
    obtain ⟨_, more, longer⟩ := (content_cases a.header).resolve_left header
    obtain ⟨section₁, out₁, first⟩ := findKey_passes
      (a.middle ++ a.line :: a.rest)
      (longer ▸ passes_header bracket a.begins more) out
    have passed : ∀ l ∈ a.middle ++ a.line :: a.rest, Passes entity (looseContent l) := by
      simp only [List.forall_mem_append, List.forall_mem_cons]
      refine ⟨fun l mem => ?_, passes_property property, fun l mem => ?_⟩
      · exact passes_other bracket (a.keyless l mem).other
      · exact passes_other bracket (a.past l mem)
    obtain ⟨_, -, none⟩ := findKey_passes_all [] passed out₁
    rw [List.append_nil] at none
    rw [first, none] at found
    cases found

/-- What `loadKeyring` returns is what the walk has found. -/
theorem loadKeyring_eq_ok {data : List UInt8} {key : List Char}
    (valid : validClientEntity entity = true) (h : loadKeyring data entity = .ok key) :
    encodedKeyFromKeyring data entity = some key := by
  have nonempty : ¬ entity.isEmpty = true := fun empty =>
    (validClientEntity_bracket valid).2 (List.isEmpty_iff.mp empty)
  unfold loadKeyring at h
  dsimp only at h
  rw [if_neg nonempty] at h
  split at h
  · cases h
  split at h
  · cases h
  split at h
  · cases h
  rename_i found
  split at h
  · cases h
  · cases h
    exact found

theorem parseKey_room {encoded : List Char} {c : Credential} {limit : Nat}
    (h : parseKeyWithin entity encoded defaultMaxKeyBytes = .ok c)
    (room : limit = 0 ∨ 12 + c.secret.secret.length ≤ limit) :
    parseKey entity encoded limit = .ok c := by
  unfold parseKey
  split
  · exact h
  next given => exact parseKeyWithin_room h (room.resolve_left given)

/-- In a keyring that the check accepts the key is found, and is read as the same credential, if
and only if no comment is attached to the header of the section or to the key. -/
theorem keyring_key_found {data : List UInt8} {entity text : List Char} {maxBytes : Nat}
    {c : Credential} (accepted : parseKeyring data entity maxBytes = .ok c)
    (decoded : decodeUtf8 data = some text) {limit : Nat}
    (room : limit = 0 ∨ 12 + c.secret.secret.length ≤ limit) :
    ((∃ key, encodedKeyFromKeyring data entity = some key ∧ parseKey entity key limit = .ok c)
        ↔ Tidy entity (lines text))
      ∧ ∀ key, loadKeyring data entity = .ok key →
        (parseKey entity key limit = .ok c ↔ Tidy entity (lines text)) := by
  obtain ⟨valid, text', same, a, parsed⟩ := parseKeyring_eq_ok accepted
  cases decoded.symm.trans same
  have found : encodedKeyFromKeyring data entity = findKey entity [] (lines text) := by
    rw [encodedKeyFromKeyring, decoded]
    rfl
  have reads : ∀ key, encodedKeyFromKeyring data entity = some key →
      (parseKey entity key limit = .ok c ↔ Tidy entity (lines text)) := by
    intro key here
    rw [found] at here
    obtain ⟨tidy, walk⟩ | ⟨untidy, walk⟩ := findKey_accepted a valid
    · cases here.symm.trans walk
      exact iff_of_true (parseKey_room parsed room) tidy
    · exact iff_of_false (fun h => parseKeyWithin_semicolon h (walk key here)) untidy
  refine ⟨⟨fun ⟨key, here, h⟩ => (reads key here).mp h, fun tidy => ?_⟩, fun key loaded => ?_⟩
  · obtain ⟨-, walk⟩ | ⟨untidy, -⟩ := findKey_accepted a valid
    · exact ⟨_, found.trans walk, parseKey_room parsed room⟩
    · exact absurd tidy untidy
  · exact reads key (loadKeyring_eq_ok valid loaded)

def admin : List Char := "client.admin".toList

def ascii (text : List Char) : List UInt8 := text.map fun c => UInt8.ofNat c.toNat

def adminCredential : Credential := ⟨admin, 123, 456, ⟨1, ascii "1234567890123456".toList⟩⟩

/-- Comments after white space. -/
def tidyText : List Char :=
  "[client.admin] ; first\nkey = AQB7AAAAyAEAABAAMTIzNDU2Nzg5MDEyMzQ1Ng== ; second\n".toList

/-- A comment right behind the key. -/
def keyText : List Char :=
  "[client.admin]\nkey = AQB7AAAAyAEAABAAMTIzNDU2Nzg5MDEyMzQ1Ng==;x\n".toList

/-- A comment right behind the header. -/
def headerText : List Char :=
  "[client.admin];x\nkey = AQB7AAAAyAEAABAAMTIzNDU2Nzg5MDEyMzQ1Ng==\n".toList

theorem keyring_key_found_tidy :
    parseKeyring (ascii tidyText) admin 0 = .ok adminCredential
      ∧ ∃ key, encodedKeyFromKeyring (ascii tidyText) admin = some key
        ∧ parseKey admin key 0 = .ok adminCredential := by
  have accepted : parseKeyring (ascii tidyText) admin 0 = .ok adminCredential := by decide +kernel
  have decoded : decodeUtf8 (ascii tidyText) = some tidyText := by decide +kernel
  have tidy : Tidy admin (lines tidyText) := by decide +kernel
  exact ⟨accepted, (keyring_key_found accepted decoded (.inl rfl)).1.mpr tidy⟩

/-- A comment right behind the key becomes part of it, and one right behind the header hides the
section. -/
theorem not_keyring_key_found :
    (parseKeyring (ascii keyText) admin 0 = .ok adminCredential
      ∧ ∃ key, encodedKeyFromKeyring (ascii keyText) admin = some key
        ∧ loadKeyring (ascii keyText) admin = .ok key
        ∧ parseKey admin key 0 = .error .invalidCredential)
      ∧ parseKeyring (ascii headerText) admin 0 = .ok adminCredential
      ∧ encodedKeyFromKeyring (ascii headerText) admin = none := by
  refine ⟨⟨?_, "AQB7AAAAyAEAABAAMTIzNDU2Nzg5MDEyMzQ1Ng==;x".toList, ?_, ?_, ?_⟩, ?_, ?_⟩
  all_goals decide +kernel

end RadosRs.Config
