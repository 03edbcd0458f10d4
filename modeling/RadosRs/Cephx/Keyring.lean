import RadosRs.Lib.Base64
import RadosRs.Lib.Bytes
import RadosRs.Lib.Fallible
import RadosRs.Lib.Text

/-!
# Keys and keyrings

A key is written in base64: a type, a time and a secret.  A keyring is a text with
one section for each entity, and `parseKeyring` reads the key of one entity and
checks the rest of the text on the way.  `Reading` says what one line can do to the
state of that walk.  A run that accepts a keyring goes through three stages: the
lines before the section of the entity, the ones between its header and its key,
and the others (`parseKeyring_eq_ok`).
-/

namespace RadosRs.Cephx

open Bytes Fallible Text

inductive Error where
  | credentialNotFound
  | invalidCredential
  | invalidKeyring
  | invalidMagic
  | invalidMode
  | invalidNonce
  | invalidStatus
  | invalidVersion
  | limitExceeded
  | malformedPayload
  | missingTicket
  | expiredTicket
  | unsupportedType
  deriving DecidableEq, Repr

def cryptoAes : Nat := 1
def cryptoAes256Krb5 : Nat := 2
def aesKeySize : Nat := 16
def aes256KeySize : Nat := 32
def defaultMaxKeyBytes : Nat := 256
def defaultMaxKeyringBytes : Nat := 1048576

structure CryptoKey where
  typeId : Nat
  secret : List UInt8
  deriving DecidableEq, Repr

structure Credential where
  entity : List Char
  createdSeconds : Nat
  createdNanoseconds : Nat
  secret : CryptoKey
  deriving DecidableEq, Repr

def validKeyParameters (typeId secretLength : Nat) : Bool :=
  (typeId == cryptoAes && secretLength == aesKeySize)
    || (typeId == cryptoAes256Krb5 && secretLength == aes256KeySize)

def validClientEntity (entity : List Char) : Bool :=
  match afterLead "client.".toList entity with
  | none => false
  | some id =>
    !id.isEmpty && !id.any fun c => c == '[' || c == ']' || c == '\r' || c == '\n' || c == '\x00'

/-! ## Keys -/

/-- A key of at most `maximum` bytes. -/
def parseKeyWithin (entity encoded : List Char) (maximum : Nat) : Except Error Credential :=
  if !validClientEntity entity then .error .invalidCredential
  else
    let encoded := trim encoded
    if encoded.isEmpty || utf8Length encoded > maximum * 2 then .error .invalidCredential
    else
      match Base64.decode encoded with
      | none => .error .invalidCredential
      | some data =>
        if data.length > maximum || data.length < 12 then .error .invalidCredential
        else
          let typeId := ofLeBytes (data.take 2)
          let createdSeconds := ofLeBytes ((data.drop 2).take 4)
          let createdNanoseconds := ofLeBytes ((data.drop 6).take 4)
          let secretLength := ofLeBytes ((data.drop 10).take 2)
          if !validKeyParameters typeId secretLength || createdNanoseconds ≥ 1000000000
              || data.length ≠ 12 + secretLength then
            .error .invalidCredential
          else .ok ⟨entity, createdSeconds, createdNanoseconds, ⟨typeId, data.drop 12⟩⟩

def parseKey (entity encoded : List Char) (maxBytes : Nat) : Except Error Credential :=
  parseKeyWithin entity encoded (if maxBytes = 0 then defaultMaxKeyBytes else maxBytes)

variable {entity : List Char} {c : Credential}

/-- A key is read in the same way under every limit that has room for it. -/
theorem parseKeyWithin_room {encoded : List Char} {small large : Nat}
    (h : parseKeyWithin entity encoded small = .ok c) (room : 12 + c.secret.secret.length ≤ large) :
    parseKeyWithin entity encoded large = .ok c := by
  unfold parseKeyWithin at h ⊢
  split at h
  · cases h
  rename_i valid
  rw [if_neg valid]
  dsimp only at h ⊢
  split at h
  · cases h
  rename_i short
  simp only [Bool.or_eq_true, decide_eq_true_eq, not_or, not_lt] at short
  cases decoded : Base64.decode (trim encoded) with
  | none =>
    rw [decoded] at h
    cases h
  | some data =>
    rw [decoded] at h
    dsimp only at h ⊢
    split at h
    · cases h
    rename_i sized
    simp only [Bool.or_eq_true, decide_eq_true_eq, not_or, not_lt] at sized
    have fits : data.length ≤ large := by
      split at h
      · cases h
      cases h
      rw [List.length_drop] at room
      omega
    have written : utf8Length (trim encoded) = (trim encoded).length :=
      utf8Length_eq_length fun c mem =>
        Base64.utf8Size_of_sextet (Base64.mem_of_decode decoded c mem)
    have length := Base64.length_of_decode decoded
    rw [if_neg (by
        simp only [Bool.or_eq_true, decide_eq_true_eq, not_or, not_lt]
        exact ⟨short.1, by omega⟩),
      if_neg (by
        simp only [Bool.or_eq_true, decide_eq_true_eq, not_or, not_lt]
        exact ⟨fits, sized.2⟩)]
    exact h

variable {maximum : Nat}

/-- A key has no semicolon in it. -/
theorem parseKeyWithin_semicolon {encoded : List Char}
    (h : parseKeyWithin entity encoded maximum = .ok c) : ';' ∉ encoded := by
  unfold parseKeyWithin at h
  split at h
  · cases h
  dsimp only at h
  split at h
  · cases h
  split at h
  · cases h
  rename_i data decoded
  intro mem
  have inside : ';' ∈ trim encoded := mem_trim mem rfl
  obtain same | known := Base64.mem_of_decode decoded _ inside
  · cases same
  · cases known

/-! ## Keyrings -/

/-- Every semicolon starts a comment, and every number sign. -/
def strictStarts (_previous : Option Char) (c : Char) : Bool := c == '#' || c == ';'

def stripComment (line : List Char) : List Char := stripCommentWith strictStarts line

/-- What a line says. -/
def content (rawLine : List Char) : List Char := stripComment (trim rawLine)

/-- The name in a header, between its brackets. -/
def headerName (line : List Char) : List Char := trim (line.drop 1).dropLast

structure KeyringState where
  «section» : List Char := []
  key : Option (List Char) := none
  foundSection : Bool := false
  deriving DecidableEq, Repr

def keyringLine (entity : List Char) (maximum : Nat) (state : KeyringState)
    (rawLine : List Char) : Except Error KeyringState :=
  let line := content rawLine
  if utf8Length rawLine > maximum then .error .invalidKeyring
  else if line.isEmpty then .ok state
  else if line.head? = some '[' then
    if line.getLast? ≠ some ']' ∨ line.count '[' ≠ 1 ∨ line.count ']' ≠ 1 then
      .error .invalidKeyring
    else if headerName line = entity then
      if state.foundSection then .error .invalidKeyring
      else .ok { state with «section» := headerName line, foundSection := true }
    else .ok { state with «section» := headerName line }
  else
    match splitOnce '=' line with
    | none => .error .invalidKeyring
    | some (name, value) =>
      let property := trim name
      if property.isEmpty || state.section.isEmpty then .error .invalidKeyring
      else if state.section ≠ entity then .ok state
      else if property = "auid".toList || "caps ".toList.isPrefixOf property
          || "caps_".toList.isPrefixOf property then
        .ok state
      else if property ≠ "key".toList || state.key.isSome then .error .invalidKeyring
      else .ok { state with key := some (unquote (trim value)) }

def parseKeyring (data : List UInt8) (entity : List Char) (maxBytes : Nat) :
    Except Error Credential :=
  if !validClientEntity entity then .error .invalidKeyring
  else
    let maximum := if maxBytes = 0 then defaultMaxKeyringBytes else maxBytes
    if data.length > maximum then .error .invalidKeyring
    else
      match decodeUtf8 data with
      | none => .error .invalidKeyring
      | some text => do
          let state ← (lines text).foldlM (keyringLine entity maximum) {}
          if !state.foundSection then throw .credentialNotFound
          match state.key with
          | none => throw .credentialNotFound
          | some key => (parseKey entity key defaultMaxKeyBytes).mapError fun _ => .invalidKeyring

/-! ## Keyrings that are accepted -/

/-- A line that begins a section. -/
structure Header (line : List Char) : Prop where
  opens : line.head? = some '['
  closes : line.getLast? = some ']'
  once : line.count ']' = 1

/-- A line with a value. -/
structure Property (line name value : List Char) : Prop where
  inside : line.head? ≠ some '['
  parts : splitOnce '=' line = some (name, value)

/-- What a line does to the state of the walk. -/
inductive Reading (entity : List Char) (state : KeyringState) (line : List Char) :
    KeyringState → Prop where
  | blank (empty : line = []) : Reading entity state line state
  /-- The section of the entity is there only once. -/
  | entity (header : Header line) (name : headerName line = entity)
      (first : state.foundSection = false) :
      Reading entity state line { state with «section» := entity, foundSection := true }
  | header (header : Header line) (name : headerName line ≠ entity) :
      Reading entity state line { state with «section» := headerName line }
  | property {name value : List Char} (property : Property line name value)
      (other : state.section = entity → trim name ≠ "key".toList) : Reading entity state line state
  | key {name value : List Char} (property : Property line name value)
      (named : trim name = "key".toList) (here : state.section = entity) (first : state.key = none) :
      Reading entity state line { state with key := some (unquote (trim value)) }

theorem keyringLine_eq_ok {rawLine : List Char} {state state' : KeyringState}
    (h : keyringLine entity maximum state rawLine = .ok state') :
    Reading entity state (content rawLine) state' := by
  unfold keyringLine at h
  dsimp only at h
  split at h
  · cases h
  split at h
  next empty =>
    cases h
    exact .blank (List.isEmpty_iff.mp empty)
  split at h
  next opens =>
    split at h
    · cases h
    rename_i shape
    simp only [not_or, not_not] at shape
    have header : Header (content rawLine) := ⟨opens, shape.1, shape.2.2⟩
    split at h
    next name =>
      split at h
      · cases h
      rename_i first
      cases h
      rw [name]
      exact .entity header name (Bool.eq_false_iff.mpr first)
    next name =>
      cases h
      exact .header header name
  next inside =>
    split at h
    · cases h
    rename_i name value parts
    have property : Property (content rawLine) name value := ⟨inside, parts⟩
    split at h
    · cases h
    split at h
    next outside =>
      cases h
      exact .property property fun here => absurd here outside
    rename_i here
    rw [not_not] at here
    split at h
    next skipped =>
      cases h
      refine .property property fun _ named => ?_
      rw [named] at skipped
      cases skipped
    split at h
    · cases h
    next known =>
      cases h
      simp only [Bool.or_eq_true, decide_eq_true_eq, not_or, not_not, Bool.not_eq_true,
        Option.isSome_eq_false_iff, Option.isNone_iff_eq_none] at known
      exact .key property known.1 here known.2

/-- A walk over lines that are all accepted. -/
inductive Walk (entity : List Char) : KeyringState → List (List Char) → KeyringState → Prop where
  | nil {state : KeyringState} : Walk entity state [] state
  | cons {state state' final : KeyringState} {line : List Char} {lines : List (List Char)}
      (first : Reading entity state (content line) state') (rest : Walk entity state' lines final) :
      Walk entity state (line :: lines) final

theorem walk_of_foldlM {lines : List (List Char)} {state final : KeyringState}
    (h : lines.foldlM (keyringLine entity maximum) state = .ok final) :
    Walk entity state lines final := by
  induction lines generalizing state with
  | nil =>
    cases h
    exact .nil
  | cons line lines ih =>
    rw [List.foldlM_cons] at h
    obtain ⟨state', first, rest⟩ := bind_eq_ok.mp h
    exact .cons (keyringLine_eq_ok first) (ih rest)

/-- A line that does not begin the section of the entity. -/
inductive Other (entity line : List Char) : Prop where
  | blank (empty : line = [])
  | header (header : Header line) (name : headerName line ≠ entity)
  | property {name value : List Char} (property : Property line name value)

/-- A line without a key, within a section. -/
inductive Keyless (line : List Char) : Prop where
  | blank (empty : line = [])
  | property {name value : List Char} (property : Property line name value)
      (other : trim name ≠ "key".toList)

theorem Keyless.other {line : List Char} (h : Keyless line) : Other entity line := by
  cases h with
  | blank empty => exact .blank empty
  | property property => exact .property property

/-- A line with a key. -/
def KeyLine (line value : List Char) : Prop :=
  ∃ name, Property line name value ∧ trim name = "key".toList

namespace Walk

variable {entity : List Char} {lines : List (List Char)} {state final : KeyringState}

variable {key : List Char}

/-- A key that has been found stays. -/
theorem key_stays (h : Walk entity state lines final) (found : state.key = some key) :
    final.key = some key := by
  induction h with
  | nil => exact found
  | cons first _ ih =>
    cases first with
    | key _ _ _ none =>
      rw [none] at found
      cases found
    | _ => exact ih found

/-- After the section of the entity there is no key of the entity. -/
theorem key_past (h : Walk entity state lines final) (found : state.foundSection = true)
    (past : state.section ≠ entity) : final.key = state.key := by
  induction h with
  | nil => rfl
  | cons first _ ih =>
    cases first with
    | blank => exact ih found past
    | entity _ _ none =>
      rw [none] at found
      cases found
    | header _ name => exact ih found name
    | property => exact ih found past
    | key _ _ here => exact absurd here past

/-- After the section of the entity has begun, it does not begin again. -/
theorem others (h : Walk entity state lines final) (found : state.foundSection = true) :
    ∀ line ∈ lines, Other entity (content line) := by
  induction h with
  | nil => exact nofun
  | cons first _ ih =>
    rw [List.forall_mem_cons]
    cases first with
    | blank empty => exact ⟨.blank empty, ih found⟩
    | entity _ _ none =>
      rw [none] at found
      cases found
    | header header name => exact ⟨.header header name, ih found⟩
    | property property => exact ⟨.property property, ih found⟩
    | key property => exact ⟨.property property, ih found⟩

/-- Before a key of the entity can be found, its section begins. -/
theorem before (h : Walk entity state lines final) (out : state.section ≠ entity)
    (fresh : state.foundSection = false) (keyless : state.key = none) (found : final.key ≠ none) :
    ∃ before header after, lines = before ++ header :: after
      ∧ (∀ line ∈ before, Other entity (content line))
      ∧ Header (content header) ∧ headerName (content header) = entity
      ∧ Walk entity ⟨entity, none, true⟩ after final := by
  induction h with
  | nil => exact absurd keyless found
  | @cons state state' final line lines first rest ih =>
    have later (other : Other entity (content line)) (out : state'.section ≠ entity)
        (fresh : state'.foundSection = false) (keyless : state'.key = none) :
        ∃ before header after, line :: lines = before ++ header :: after
          ∧ (∀ line ∈ before, Other entity (content line))
          ∧ Header (content header) ∧ headerName (content header) = entity
          ∧ Walk entity ⟨entity, none, true⟩ after final := by
      obtain ⟨before, header, after, rfl, others, shape, name, walk⟩ := ih out fresh keyless found
      refine ⟨line :: before, header, after, rfl, ?_, shape, name, walk⟩
      exact List.forall_mem_cons.mpr ⟨other, others⟩
    cases first with
    | blank empty => exact later (.blank empty) out fresh keyless
    | entity header name =>
      rw [keyless] at rest
      exact ⟨[], line, lines, rfl, nofun, header, name, rest⟩
    | header header name => exact later (.header header name) name fresh keyless
    | property property => exact later (.property property) out fresh keyless
    | key _ _ here => exact absurd here out

/-- Within the section, there are lines without a key and then the key. -/
theorem within (h : Walk entity state lines final) (inside : state.section = entity)
    (begun : state.foundSection = true) (keyless : state.key = none)
    (found : final.key = some key) :
    ∃ middle line value rest, lines = middle ++ line :: rest
      ∧ (∀ line ∈ middle, Keyless (content line))
      ∧ KeyLine (content line) value ∧ key = unquote (trim value)
      ∧ Walk entity ⟨entity, some key, true⟩ rest final := by
  induction h with
  | nil =>
    rw [keyless] at found
    cases found
  | @cons state state' final line lines first rest ih =>
    have later (other : Keyless (content line)) (same : state' = state) :
        ∃ middle line' value rest, line :: lines = middle ++ line' :: rest
          ∧ (∀ line ∈ middle, Keyless (content line))
          ∧ KeyLine (content line') value ∧ key = unquote (trim value)
          ∧ Walk entity ⟨entity, some key, true⟩ rest final := by
      subst same
      obtain ⟨middle, line', value, tail, rfl, others, shape, same, walk⟩ :=
        ih inside begun keyless found
      refine ⟨line :: middle, line', value, tail, rfl, ?_, shape, same, walk⟩
      exact List.forall_mem_cons.mpr ⟨other, others⟩
    cases first with
    | blank empty => exact later (.blank empty) rfl
    | entity _ _ none =>
      rw [none] at begun
      cases begun
    | header _ name =>
      rw [rest.key_past begun name, keyless] at found
      cases found
    | property property other => exact later (.property property (other inside)) rfl
    | @key name value property named =>
      have same := rest.key_stays rfl
      rw [found] at same
      cases same
      rw [inside, begun] at rest
      exact ⟨[], line, value, lines, rfl, nofun, ⟨name, property, named⟩, rfl, rest⟩

/-- After the key there is no other one in the section. -/
theorem after (h : Walk entity state lines final) (inside : state.section = entity)
    (begun : state.foundSection = true) (found : state.key ≠ none) :
    ∀ line ∈ lines.takeWhile fun line => (content line).head? != some '[',
      ∀ value, ¬ KeyLine (content line) value := by
  induction h with
  | nil => exact nofun
  | @cons state state' final line lines first rest ih =>
    rw [List.takeWhile_cons]
    split
    next shape =>
      rw [bne_iff_ne] at shape
      rw [List.forall_mem_cons]
      cases first with
      | blank empty =>
        refine ⟨?_, ih inside begun found⟩
        rintro value ⟨name, property, -⟩
        cases empty ▸ property.parts
      | entity header => exact absurd header.opens shape
      | header header => exact absurd header.opens shape
      | property property other =>
        refine ⟨?_, ih inside begun found⟩
        rintro value ⟨name, again, named⟩
        cases property.parts.symm.trans again.parts
        exact other inside named
      | key _ _ _ none => exact absurd none found
    · exact nofun

end Walk

/-- The lines of a keyring that is accepted, and the value of the key. -/
structure Accepted (entity : List Char) (lines : List (List Char)) where
  before : List (List Char)
  header : List Char
  middle : List (List Char)
  line : List Char
  value : List Char
  rest : List (List Char)
  whole : lines = before ++ header :: (middle ++ line :: rest)
  others : ∀ l ∈ before, Other entity (content l)
  begins : Header (content header)
  name : headerName (content header) = entity
  keyless : ∀ l ∈ middle, Keyless (content l)
  key : KeyLine (content line) value
  past : ∀ l ∈ rest, Other entity (content l)
  single : ∀ l ∈ rest.takeWhile fun l => (content l).head? != some '[',
    ∀ value, ¬ KeyLine (content l) value

theorem validClientEntity_bracket (h : validClientEntity entity = true) :
    ']' ∉ entity ∧ entity ≠ [] := by
  unfold validClientEntity at h
  split at h
  · cases h
  rename_i id rest
  unfold afterLead at rest
  split at rest
  next lead =>
    cases rest
    obtain ⟨id, rfl⟩ := List.isPrefixOf_iff_prefix.mp lead
    rw [List.drop_left, Bool.and_eq_true, Bool.not_eq_true', Bool.not_eq_true'] at h
    refine ⟨fun mem => ?_, List.append_ne_nil_of_left_ne_nil (by decide) id⟩
    obtain mem | mem := List.mem_append.mp mem
    · exact absurd mem (by decide)
    · exact Bool.false_ne_true (h.2.symm.trans (List.any_eq_true.mpr ⟨_, mem, rfl⟩))
  · cases rest

theorem parseKeyring_eq_ok {data : List UInt8} {maxBytes : Nat}
    (h : parseKeyring data entity maxBytes = .ok c) :
    validClientEntity entity = true ∧ ∃ text, decodeUtf8 data = some text
      ∧ ∃ accepted : Accepted entity (lines text),
        parseKeyWithin entity (unquote (trim accepted.value)) defaultMaxKeyBytes = .ok c := by
  unfold parseKeyring at h
  split at h
  · cases h
  rename_i valid
  rw [Bool.not_eq_true, Bool.not_eq_false'] at valid
  refine ⟨valid, ?_⟩
  dsimp only at h
  generalize (if maxBytes = 0 then defaultMaxKeyringBytes else maxBytes) = maximum at h
  split at h
  · cases h
  split at h
  · cases h
  rename_i text decoded
  refine ⟨text, decoded, ?_⟩
  obtain ⟨final, walked, h⟩ := bind_eq_ok.mp h
  obtain ⟨-, h⟩ := check_eq_ok.mp h
  split at h
  · cases h
  rename_i key found
  have parsed : parseKeyWithin entity key defaultMaxKeyBytes = .ok c := mapError_eq_ok.mp h
  have nonempty := (validClientEntity_bracket valid).2
  obtain ⟨before, header, after, whole, others, begins, name, walk⟩ :=
    (walk_of_foldlM walked).before nonempty.symm rfl rfl (by rw [found]; exact nofun)
  obtain ⟨middle, line, value, rest, rfl, keyless, shape, rfl, walk⟩ :=
    walk.within rfl rfl rfl found
  exact ⟨⟨before, header, middle, line, value, rest, whole, others, begins, name, keyless,
    shape, walk.others rfl, walk.after rfl rfl nofun⟩, parsed⟩

end RadosRs.Cephx
