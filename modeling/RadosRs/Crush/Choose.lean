import Mathlib.Logic.Relation
import RadosRs.Crush.Place
import RadosRs.Lib.Selection

/-!
# What the choice functions choose

Below a bucket of a map are the items it holds, the items these hold, and so on.
A device can be chosen if it is one of the map's devices and not out.  The
results of this module say that the choice functions choose such devices below
the bucket they start from, and none of them twice.

For `chooseFirstN` the choices are pairs: the item that was drawn and the device
that stands for it, which is the item itself or, with `recurseToLeaf`, a device
below it.  A call makes the list of pairs grow by pairs that are new in both
components (`chooseFirstN_fills`).  The rounds of `chooseIndep` keep that no
device stands in two slots (`chooseIndep_sound`).
-/

namespace RadosRs.Crush

open Fallible Selection
open Retry (Next)

/-- A bucket holds an item. -/
def Map.Holds (m : Map) (id item : Int) : Prop :=
  ∃ bucket, m.buckets[id]? = some bucket ∧ item ∈ bucket.items

/-- An item is somewhere below a bucket. -/
def Map.Reaches (m : Map) : Int → Int → Prop := Relation.TransGen m.Holds

/-- All items of a bucket are below another one. -/
def Map.Under (m : Map) (top : Int) (bucket : Bucket) : Prop :=
  ∀ item ∈ bucket.items, m.Reaches top item

variable {bucket : Bucket}

theorem Map.under_self {m : Map} {id : Int} (h : m.buckets[id]? = some bucket) :
    m.Under id bucket :=
  fun _ held => .single ⟨bucket, h, held⟩

variable {item : Int}

theorem Map.Under.child {m : Map} {top : Int} {child : Bucket} (h : m.Under top bucket)
    (held : item ∈ bucket.items) (found : m.buckets[item]? = some child) : m.Under top child :=
  fun _ inside => (h item held).tail ⟨child, found, inside⟩

namespace Placement

/-- A device of the map that is not out. -/
structure Device (p : Placement) (seed : UInt32) (d : Int) : Prop where
  nonneg : 0 ≤ d
  inRange : d < p.crush.maxDevices
  notOut : p.isOut d seed = false

variable {p : Placement}

theorem isOut_of_neg (h : item < 0) (seed : UInt32) : p.isOut item seed = true := by
  simp [isOut, h]

variable {seed : UInt32}

/-- An item in range that is not out is a device. -/
theorem device_of_not_out (inRange : item < p.crush.maxDevices)
    (notOut : ¬ p.isOut item seed = true) : p.Device seed item := by
  refine ⟨?_, inRange, by simpa using notOut⟩
  by_contra negative
  exact notOut (isOut_of_neg (Int.lt_of_not_ge negative) seed)

/-- Only a bucket has a type other than zero. -/
theorem neg_of_itemType {type : Int} (h : p.itemType item = some type) (positive : type ≠ 0) :
    item < 0 := by
  unfold itemType at h
  split at h
  next negative => exact negative
  · exact absurd (Option.some.inj h).symm positive

/-! ## Drawing -/

variable {replica : Nat}

theorem mem_of_straw2Choose {ε : Type}
    (h : (straw2Choose bucket seed replica : Run ε Int) = .ok item) : item ∈ bucket.items := by
  obtain ⟨_, _, chosen⟩ := bind_eq_ok.mp h
  exact mem_of_index chosen

theorem mem_of_permutationChoose {ε : Type} {permutations after : Permutations}
    (h : (permutationChoose permutations bucket seed replica : Run ε _) = .ok (item, after)) :
    item ∈ bucket.items := by
  unfold permutationChoose at h
  obtain ⟨_, _, h⟩ := bind_eq_ok.mp h
  obtain ⟨_, _, h⟩ := bind_eq_ok.mp h
  split at h
  · obtain ⟨_, _, h⟩ := bind_eq_ok.mp h
    obtain ⟨_, chosen, h⟩ := bind_eq_ok.mp h
    cases h
    exact mem_of_index chosen
  obtain ⟨_, _, h⟩ := bind_eq_ok.mp h
  obtain ⟨_, _, h⟩ := bind_eq_ok.mp h
  obtain ⟨_, _, h⟩ := bind_eq_ok.mp h
  obtain ⟨_, chosen, h⟩ := bind_eq_ok.mp h
  cases h
  exact mem_of_index chosen

/-! ## The choices of `chooseFirstN` -/

variable {p : Placement} {call : FirstN} {top : Int}

/-- The devices that stand for the items of the output. -/
def Slots.devices (call : FirstN) (slots : Slots) : List Int :=
  if call.recurseToLeaf then slots.leaves.getD [] else slots.output

/-- The choices made so far: an item and the device that stands for it. -/
def Slots.picks (call : FirstN) (slots : Slots) : List (Int × Int) :=
  (slots.output.take slots.position).zip ((slots.devices call).take slots.position)

/-- The buffers reach as far as the choices. -/
structure Slots.Fits (call : FirstN) (slots : Slots) : Prop where
  output : slots.position ≤ slots.output.length
  devices : slots.position ≤ (slots.devices call).length
  leaves : call.recurseToLeaf → slots.leaves.isSome

/-- A choice that may follow the choices before it. -/
structure Allowed (p : Placement) (call : FirstN) (top : Int) (before : List (Int × Int))
    (pick : Int × Int) : Prop where
  newItem : pick.1 ∉ before.map Prod.fst
  newDevice : pick.2 ∉ before.map Prod.snd
  below : p.crush.Reaches top pick.1
  type : p.itemType pick.1 = some call.targetType
  device : p.Device call.seed pick.2
  leaf : if call.recurseToLeaf then p.crush.Reaches pick.1 pick.2 else pick.2 = pick.1

/-- What a call does: it adds choices, and every choice takes one of the places there is room
for. -/
structure Slots.Fills (p : Placement) (call : FirstN) (top : Int) (before after : Slots) :
    Prop where
  grows : Grows (Allowed p call top) (before.picks call) (after.picks call)
  fits : after.Fits call
  length : after.output.length = before.output.length
  room : after.position + after.count = before.position + before.count

namespace Slots.Fits

variable {slots : Slots}

theorem picks_items (h : slots.Fits call) :
    (slots.picks call).map Prod.fst = slots.output.take slots.position := by
  have output := h.output
  have devices := h.devices
  rw [picks, List.map_fst_zip]
  simp only [List.length_take]
  omega

theorem picks_devices (h : slots.Fits call) :
    (slots.picks call).map Prod.snd = (slots.devices call).take slots.position := by
  have output := h.output
  have devices := h.devices
  rw [picks, List.map_snd_zip]
  simp only [List.length_take]
  omega

end Slots.Fits

/-! ### What a descent leaves alone -/

/-- A descent writes to the leaves past the choices made, and to nothing else that counts. -/
structure Slots.Keeps (before after : Slots) : Prop where
  output : after.output = before.output
  position : after.position = before.position
  count : after.count = before.count
  leaves : after.leaves.map (fun values => (values.length, values.take before.position)) =
    before.leaves.map fun values => (values.length, values.take before.position)

namespace Slots.Keeps

variable {s t u : Slots}

theorem refl (s : Slots) : s.Keeps s := ⟨rfl, rfl, rfl, rfl⟩

theorem trans (h : s.Keeps t) (k : t.Keeps u) : s.Keeps u := by
  refine ⟨k.output.trans h.output, k.position.trans h.position, k.count.trans h.count, ?_⟩
  have leaves := k.leaves
  rw [h.position] at leaves
  exact leaves.trans h.leaves

theorem devices (h : s.Keeps t) :
    (t.devices call).length = (s.devices call).length ∧
      (t.devices call).take s.position = (s.devices call).take s.position := by
  have leaves := h.leaves
  unfold Slots.devices
  split
  · cases hs : s.leaves with
    | none => simp_all
    | some values =>
      cases ht : t.leaves with
      | none => simp_all
      | some others => simp_all
  · exact ⟨by rw [h.output], by rw [h.output]⟩

theorem picks (h : s.Keeps t) : t.picks call = s.picks call := by
  rw [Slots.picks, Slots.picks, h.output, h.position, h.devices.2]

theorem fits (h : s.Keeps t) (fits : s.Fits call) : t.Fits call := by
  refine ⟨?_, ?_, ?_⟩
  · rw [h.output, h.position]
    exact fits.output
  · rw [h.devices.1, h.position]
    exact fits.devices
  intro leaf
  have same := congrArg Option.isSome h.leaves
  simp only [Option.isSome_map] at same
  rw [same]
  exact fits.leaves leaf

end Slots.Keeps

/-! ### One turn of a descent -/

variable {s : Search} {next : Next Search (Option Int × Slots)}

theorem retry_meets {collide : Bool} {Inv : Search → Prop} {Post : Option Int × Slots → Prop}
    (h : retry call s collide = .ok next) (again : ∀ s' : Search, s'.slots = s.slots →
      s'.current = s.current ∨ s'.current = call.bucket → Inv s') (done : Post (none, s.slots)) :
    Meets Inv Post next := by
  obtain ⟨_, _, h⟩ := bind_eq_ok.mp h
  split at h
  · cases h
    exact again _ rfl (.inl rfl)
  split at h
  · cases h
    exact again _ rfl (.inr rfl)
  · cases h
    exact done

theorem draw_eq_ok {after : Search} {r : Nat} (h : draw call s r = .ok (item, after)) :
    item ∈ s.current.items ∧ after.current = s.current ∧ s.slots.Keeps after.slots := by
  obtain ⟨_, _, h⟩ := bind_eq_ok.mp h
  split at h
  · obtain ⟨⟨_, _⟩, chosen, h⟩ := bind_eq_ok.mp h
    cases h
    exact ⟨mem_of_permutationChoose chosen, rfl, ⟨rfl, rfl, rfl, rfl⟩⟩
  obtain ⟨_, chosen, h⟩ := bind_eq_ok.mp h
  cases h
  exact ⟨mem_of_straw2Choose chosen, rfl, .refl _⟩

/-! ### The device below a chosen item -/

/-- A call that adds anything adds a first device, right after those there are. -/
theorem Slots.Fills.first {s t : Slots} (h : s.Fills p call top t) (fits : s.Fits call) :
    (s.position = t.position ∧
        (t.devices call).take s.position = (s.devices call).take s.position) ∨
      ∃ pick, Allowed p call top (s.picks call) pick ∧
        (t.devices call).take (s.position + 1) = (s.devices call).take s.position ++ [pick.2] := by
  have length : ((s.devices call).take s.position).length = s.position := by
    simp [fits.devices]
  rcases h.grows.first with same | ⟨pick, allowed, more⟩
  · have devices := congrArg (List.map Prod.snd) same
    rw [h.fits.picks_devices, fits.picks_devices] at devices
    have positions := congrArg List.length devices
    rw [length, List.length_take, Nat.min_eq_left h.fits.devices] at positions
    exact .inl ⟨positions.symm, by rw [← positions, devices, positions]⟩
  refine .inr ⟨pick, allowed, ?_⟩
  have devices := more.map Prod.snd
  rw [List.map_append, h.fits.picks_devices, fits.picks_devices] at devices
  have whole := List.prefix_iff_eq_take.mp (devices.trans (List.take_prefix _ _))
  rw [List.length_append, length] at whole
  exact whole.symm

/-- The promise of a call for devices, on which a call for buckets relies. -/
def FillsDevices (p : Placement) (choose : FirstN → Slots → Run PlacementError Slots) : Prop :=
  ∀ {call : FirstN} {top : Int} {slots after : Slots}, call.recurseToLeaf = false →
    call.targetType = 0 → p.crush.Under top call.bucket → slots.Fits call →
    choose call slots = .ok after → slots.Fills p call top after

/-- The leaf at the next place stands for an item. -/
structure Leaf (p : Placement) (call : FirstN) (before after : Slots) (item leaf : Int) :
    Prop where
  placed : ∃ values, after.leaves = some values ∧
    values.take (before.position + 1) = (before.devices call).take before.position ++ [leaf]
  new : leaf ∉ (before.devices call).take before.position
  device : p.Device call.seed leaf
  below : p.crush.Reaches item leaf

variable {slots : Slots} {choose : FirstN → Slots → Run PlacementError Slots}

theorem firstNLeaf_eq_ok (deep : FillsDevices p choose) {r : Nat} {after : Slots} {reject : Bool}
    (fits : slots.Fits call) (bucket : call.recurseToLeaf → item < 0)
    (h : firstNLeaf p choose call r item slots = .ok (reject, after)) :
    slots.Keeps after ∧
      (reject = false → call.recurseToLeaf → ∃ leaf, Leaf p call slots after item leaf) := by
  unfold firstNLeaf at h
  split at h
  next plain =>
    cases h
    exact ⟨.refl slots, fun _ leaf => absurd leaf plain⟩
  rename_i recurse
  have recurse : call.recurseToLeaf = true := by simpa using recurse
  rw [if_pos (bucket recurse)] at h
  obtain ⟨subR, _, h⟩ := bind_eq_ok.mp h
  obtain ⟨values, held⟩ := Option.isSome_iff_exists.mp (fits.leaves recurse)
  have devices : slots.devices call = values := by simp [Slots.devices, recurse, held]
  simp only [held] at h
  obtain ⟨child, found, h⟩ := bind_eq_ok.mp h
  obtain ⟨chosen, called, h⟩ := bind_eq_ok.mp h
  cases h
  -- the inner call sees the leaves as its output
  have inner : Slots.Fits (call.deeper child slots.position subR)
      { slots with output := values, leaves := none } := by
    have room := devices ▸ fits.devices
    exact ⟨room, room, fun wrong => absurd wrong (by simp [FirstN.deeper])⟩
  have fills := deep rfl rfl (Map.under_self (expect_eq_ok.mp found)) inner called
  have length : chosen.output.length = values.length := fills.length
  rcases fills.first inner with ⟨stays, same⟩ | ⟨pick, allowed, more⟩
  · refine ⟨⟨rfl, rfl, rfl, ?_⟩, ?_⟩
    · have taken : chosen.output.take slots.position = values.take slots.position := same
      simp [held, length, taken]
    · intro accepted
      simp only [decide_eq_false_iff_not] at accepted
      exact absurd (Nat.le_of_eq stays.symm) accepted
  · have taken : chosen.output.take (slots.position + 1) =
        values.take slots.position ++ [pick.2] := more
    refine ⟨⟨rfl, rfl, rfl, ?_⟩, fun _ _ => ⟨pick.2, ?_⟩⟩
    · have shorter := congrArg (List.take slots.position) taken
      rw [List.take_take, Nat.min_eq_left (Nat.le_succ _),
        List.take_append_of_le_length (by simp [devices ▸ fits.devices])] at shorter
      simp only [List.take_take, Nat.min_self] at shorter
      simp [held, length, shorter]
    have same : pick.2 = pick.1 := allowed.leaf
    have new := allowed.newDevice
    rw [inner.picks_devices] at new
    exact
      { placed := ⟨chosen.output, rfl, by rw [devices]; exact taken⟩
        new := by rw [devices]; exact new
        device := allowed.device
        below := same ▸ allowed.below }

/-! ### A descent -/

/-- Buckets are asked for exactly when a device below them is wanted. -/
def FirstN.Suited (call : FirstN) : Prop := call.recurseToLeaf = true ↔ call.targetType ≠ 0

/-- A descent is in a bucket below the top and has made no choice yet. -/
structure Descends (p : Placement) (top : Int) (before : Slots) (s : Search) : Prop where
  under : p.crush.Under top s.current
  keeps : before.Keeps s.slots

/-- An item is found, and its device is at hand: it is the item, or the leaf at the next
place. -/
structure Found (p : Placement) (call : FirstN) (top : Int) (before after : Slots)
    (item device : Int) : Prop where
  allowed : Allowed p call top (before.picks call) (item, device)
  placed : call.recurseToLeaf → ∃ values, after.leaves = some values ∧
    values.take (before.position + 1) = (before.devices call).take before.position ++ [device]

/-- How a descent ends: with an allowed choice or without one. -/
def Ends (p : Placement) (call : FirstN) (top : Int) (before : Slots)
    (result : Option Int × Slots) : Prop :=
  before.Keeps result.2 ∧
    ∀ item, result.1 = some item → ∃ device, Found p call top before result.2 item device

variable {before : Slots}

/-- A descent that finds nothing. -/
theorem ends_none {after : Slots} (keeps : before.Keeps after) :
    Ends p call top before (none, after) :=
  ⟨keeps, fun _ none => absurd none nofun⟩

/-- The draw that is taken. -/
theorem found_of_accepted {after after' : Slots} {type : Int} {reject : Bool}
    (suited : call.Suited) (fits : before.Fits call) (keeps : before.Keeps after)
    (below : p.crush.Reaches top item) (inRange : item < p.crush.maxDevices)
    (type_eq : p.itemType item = some type) (wanted : ¬ type ≠ call.targetType)
    (new : item ∉ after.output.take after.position)
    (leaf : reject = false → call.recurseToLeaf → ∃ leaf, Leaf p call after after' item leaf)
    (accepted : ¬ (reject = true ∨ type = 0 ∧ p.isOut item call.seed = true)) :
    ∃ device, Found p call top before after' item device := by
  have target : type = call.targetType := not_not.mp wanted
  subst target
  push Not at accepted
  obtain ⟨taken, notOut⟩ := accepted
  have newItem : item ∉ (before.picks call).map Prod.fst := by
    rw [fits.picks_items, ← keeps.output, ← keeps.position]
    exact new
  by_cases recurse : call.recurseToLeaf = true
  · obtain ⟨device, found⟩ := leaf (by simpa using taken) recurse
    have position := keeps.position
    refine ⟨device, ?_, ?_⟩
    · have newDevice : device ∉ (before.picks call).map Prod.snd := by
        rw [fits.picks_devices, ← keeps.devices.2, ← position]
        exact found.new
      exact ⟨newItem, newDevice, below, type_eq, found.device, by simpa [recurse] using found.below⟩
    obtain ⟨values, held, front⟩ := found.placed
    intro _
    refine ⟨values, held, ?_⟩
    rw [← position, front, position, keeps.devices.2]
  · have zero : call.targetType = 0 := by
      by_contra positive
      exact recurse (suited.mpr positive)
    have plain : before.devices call = before.output := by simp [Slots.devices, recurse]
    have newDevice : item ∉ (before.picks call).map Prod.snd := by
      rw [fits.picks_devices, plain, ← keeps.output, ← keeps.position]
      exact new
    exact ⟨item, ⟨newItem, newDevice, below, type_eq, device_of_not_out inRange (notOut zero),
      by simp [recurse]⟩, fun wrong => absurd wrong recurse⟩

theorem firstNTurn_meets (deep : FillsDevices p choose) (suited : call.Suited)
    (root : p.crush.Under top call.bucket) (fits : before.Fits call)
    (inv : Descends p top before s) (h : firstNTurn p choose call replica s = .ok next) :
    Meets (Descends p top before) (Ends p call top before) next := by
  unfold firstNTurn at h
  split at h
  · refine retry_meets h ?_ (ends_none inv.keeps)
    rintro s' slots (current | current)
    · exact ⟨current ▸ inv.under, slots ▸ inv.keeps⟩
    · exact ⟨current ▸ root, slots ▸ inv.keeps⟩
  obtain ⟨⟨item, s⟩, drawn, h⟩ := bind_eq_ok.mp h
  obtain ⟨held, same, kept⟩ := draw_eq_ok drawn
  have below := inv.under item held
  have keeps := inv.keeps.trans kept
  dsimp only at h
  split at h
  · cases h
    exact ends_none keeps
  rename_i inRange
  split at h
  · cases h
    exact ends_none keeps
  rename_i type type_eq
  split at h
  · split at h
    · cases h
      exact ends_none keeps
    · obtain ⟨child, found, h⟩ := bind_eq_ok.mp h
      cases h
      exact ⟨inv.under.child held (expect_eq_ok.mp found), keeps⟩
  next wanted =>
    obtain ⟨taken, front_eq, h⟩ := bind_eq_ok.mp h
    obtain ⟨_, rfl⟩ := guarded_eq_ok.mp front_eq
    split at h
    · refine retry_meets h ?_ (ends_none keeps)
      rintro s' slots (current | current)
      · exact ⟨current ▸ same ▸ inv.under, slots ▸ keeps⟩
      · exact ⟨current ▸ root, slots ▸ keeps⟩
    rename_i new
    obtain ⟨⟨reject, after⟩, leaf_eq, h⟩ := bind_eq_ok.mp h
    have bucket : call.recurseToLeaf → item < 0 := fun recurse =>
      neg_of_itemType type_eq (not_not.mp wanted ▸ suited.mp recurse)
    obtain ⟨kept', leaf⟩ := firstNLeaf_eq_ok deep (keeps.fits fits) bucket leaf_eq
    dsimp only at h
    split at h
    · refine retry_meets h ?_ (ends_none (keeps.trans kept'))
      rintro s' slots (current | current)
      · exact ⟨current ▸ same ▸ inv.under, slots ▸ keeps.trans kept'⟩
      · exact ⟨current ▸ root, slots ▸ keeps.trans kept'⟩
    rename_i accepted
    cases h
    refine ⟨keeps.trans kept', ?_⟩
    rintro _ ⟨⟩
    exact found_of_accepted suited fits keeps below (by omega) type_eq wanted new leaf
      accepted

/-! ### The whole call -/

/-- The slots after an item has gone to the next place. -/
def Slots.push (slots : Slots) (item : Int) : Slots :=
  { slots with
    output := slots.output.set slots.position item, position := slots.position + 1
    count := slots.count - 1 }

theorem take_succ_set {α : Type} {xs : List α} {i : Nat} (h : i < xs.length) (a : α) :
    (xs.set i a).take (i + 1) = xs.take i ++ [a] := by
  rw [List.take_add_one, List.getElem?_set_self h, List.take_set_of_le (Nat.le_refl i)]
  rfl

theorem Found.fills {after : Slots} {device : Int} (h : Found p call top before after item device)
    (fits : before.Fits call) (keeps : before.Keeps after)
    (inside : after.position < after.output.length) (room : before.count ≠ 0) :
    before.Fills p call top (after.push item) := by
  have position := keeps.position
  have output : (after.push item).output.take (after.push item).position =
      before.output.take before.position ++ [item] := by
    rw [← keeps.output, ← position]
    exact take_succ_set inside item
  have devices : ((after.push item).devices call).take (after.push item).position =
      (before.devices call).take before.position ++ [device] := by
    by_cases recurse : call.recurseToLeaf = true
    · obtain ⟨values, held, front⟩ := h.placed recurse
      rw [← front, ← position]
      simp [Slots.devices, Slots.push, recurse, held]
    · have same : device = item := by simpa [recurse] using h.allowed.leaf
      simpa [Slots.devices, recurse, same] using output
  have picks : (after.push item).picks call = before.picks call ++ [(item, device)] := by
    rw [Slots.picks, output, devices, List.zip_append]
    · rfl
    · simp [fits.output, fits.devices]
  have fits' : (after.push item).Fits call := by
    refine ⟨?_, ?_, ?_⟩
    · show after.position + 1 ≤ (after.output.set after.position item).length
      rw [List.length_set]
      exact inside
    · have length := congrArg List.length devices
      rw [List.length_take, List.length_append, List.length_take, Nat.min_eq_left fits.devices,
        List.length_singleton] at length
      have next : (after.push item).position = before.position + 1 := by
        rw [← position]
        rfl
      omega
    · exact (keeps.fits fits).leaves
  refine ⟨picks ▸ .snoc .start h.allowed, fits', ?_, ?_⟩
  · simp [Slots.push, keeps.output]
  have count := keeps.count
  simp only [Slots.push]
  omega

theorem Slots.Fills.refl (fits : slots.Fits call) : slots.Fills p call top slots :=
  ⟨.start, fits, rfl, rfl⟩

theorem Slots.Fills.trans {s t u : Slots} (h : s.Fills p call top t) (k : t.Fills p call top u) :
    s.Fills p call top u :=
  ⟨h.grows.trans k.grows, k.fits, k.length.trans h.length, k.room.trans h.room⟩

theorem Slots.Keeps.fills {s t : Slots} (h : s.Keeps t) (fits : s.Fits call) :
    s.Fills p call top t :=
  ⟨h.picks ▸ .start, h.fits fits, by rw [h.output], by rw [h.position, h.count]⟩

variable {fuel : Nat}

theorem firstNReplica_fills (deep : FillsDevices p choose) {after : Slots} (suited : call.Suited)
    (root : p.crush.Under top call.bucket) (fits : slots.Fits call)
    (h : firstNReplica p choose fuel call slots replica = .ok after) :
    slots.Fills p call top after := by
  unfold firstNReplica at h
  split at h
  · cases h
    exact .refl fits
  rename_i room
  obtain ⟨⟨found, slots'⟩, searched, h⟩ := bind_eq_ok.mp h
  have ends : Ends p call top slots (found, slots') :=
    loop_rule (Descends p top slots) (Ends p call top slots)
      (fun s next inv turn => firstNTurn_meets deep suited root fits inv turn)
      ⟨root, .refl slots⟩ searched
  obtain ⟨keeps, choice⟩ := ends
  cases found with
  | none =>
    cases h
    exact keeps.fills fits
  | some item =>
    obtain ⟨output, updated, h⟩ := bind_eq_ok.mp h
    obtain ⟨inside, rfl⟩ := guarded_eq_ok.mp updated
    cases h
    obtain ⟨device, found⟩ := choice item rfl
    exact found.fills fits keeps inside room

theorem chooseFirstNWith_fills (deep : FillsDevices p choose) {replicas : List Nat}
    {after : Slots} (suited : call.Suited) (root : p.crush.Under top call.bucket)
    (fits : slots.Fits call)
    (h : replicas.foldlM (firstNReplica p choose fuel call) slots = .ok after) :
    slots.Fills p call top after := by
  refine foldlM_rule (slots.Fills p call top) ?_ (.refl fits) h
  intro s replica s' _ filled turn
  exact filled.trans (firstNReplica_fills deep suited root filled.fits turn)

/-- A call for devices keeps its promise; the calls it makes of itself have less fuel. -/
theorem chooseFirstN_fillsDevices (p : Placement) (fuel : Nat) :
    FillsDevices p (p.chooseFirstN fuel) := by
  induction fuel with
  | zero =>
    intro call top slots after _ _ _ _ h
    cases h
  | succ fuel ih =>
    intro call top slots after plain zero root fits h
    have suited : call.Suited := by simp [FirstN.Suited, plain, zero]
    exact chooseFirstNWith_fills ih suited root fits h

theorem chooseFirstN_fills {after : Slots} (suited : call.Suited)
    (root : p.crush.Under top call.bucket) (fits : slots.Fits call)
    (h : p.chooseFirstN fuel call slots = .ok after) : slots.Fills p call top after := by
  cases fuel with
  | zero => cases h
  | succ fuel =>
    exact chooseFirstNWith_fills (chooseFirstN_fillsDevices p fuel) suited root fits h

/-! ## The slots of `chooseIndep` -/

variable {call : Indep} {seed : UInt32}

/-- Every slot holds a device below the top or is empty, and no device is in two slots. -/
structure Sound (p : Placement) (seed : UInt32) (top : Int) (output : List Int) : Prop where
  devices : ∀ d ∈ output, d = itemNone ∨ p.Device seed d ∧ p.crush.Reaches top d
  once : NoRepeat itemNone output

theorem sound_replicate (p : Placement) (seed : UInt32) (top : Int) (n : Nat) :
    Sound p seed top (List.replicate n itemNone) :=
  ⟨fun _ mem => .inl (List.eq_of_mem_replicate mem), noRepeat_replicate itemNone n⟩

/-- A slot is emptied, or gets a device that is in no slot. -/
theorem Sound.set {output : List Int} (h : Sound p seed top output) (ok : item = itemNone ∨
      item ∉ output ∧ p.Device seed item ∧ p.crush.Reaches top item) (position : Nat) :
    Sound p seed top (output.set position item) := by
  refine ⟨?_, h.once.set (ok.symm.imp_left And.left) position⟩
  intro d mem
  rcases List.mem_or_eq_of_mem_set mem with old | rfl
  · exact h.devices d old
  · exact ok.imp_right And.right

/-- A call for one device in each slot. -/
structure Indep.Plain (call : Indep) : Prop where
  start : call.start = 0
  target : call.targetType = 0
  leaf : call.recurseToLeaf = false

/-- The state of the slots during a call. -/
structure Filling (p : Placement) (call : Indep) (top : Int) (holes : Holes) : Prop where
  sound : Sound p call.seed top holes.output
  length : holes.output.length = call.stop

variable {holes after : Holes}

theorem Filling.drop (h : Filling p call top holes) (dropped : holes.drop = .ok after) :
    Filling p call top after := by
  obtain ⟨_, _, same⟩ := bind_eq_ok.mp dropped
  cases same
  exact ⟨h.sound, h.length⟩

theorem Filling.set (h : Filling p call top holes) (ok : item = itemNone ∨
      item ∉ holes.output ∧ p.Device call.seed item ∧ p.crush.Reaches top item) (position : Nat) :
    Filling p call top { holes with output := holes.output.set position item } :=
  ⟨h.sound.set ok position, by simpa using h.length⟩

variable {position : Nat}

theorem indepLeaf_plain {choose : Indep → Holes → Run PlacementError Holes} {r : Nat}
    (plain : call.Plain) : indepLeaf p choose call position r item holes = .ok (false, holes) := by
  simp [indepLeaf, plain.leaf, pure, Except.pure]

variable {failure : Nat}

theorem indepTurn_meets {choose : Indep → Holes → Run PlacementError Holes} {current : Bucket}
    {next : Next (Bucket × Holes) Holes} (plain : call.Plain)
    (inv : p.crush.Under top current ∧ Filling p call top holes)
    (h : indepTurn p choose call failure position (current, holes) = .ok next) :
    Meets (fun s => p.crush.Under top s.1 ∧ Filling p call top s.2) (Filling p call top) next := by
  obtain ⟨under, filling⟩ := inv
  unfold indepTurn at h
  dsimp only at h
  split at h
  · cases h
    exact filling
  obtain ⟨item, drawn, h⟩ := bind_eq_ok.mp h
  have held := mem_of_straw2Choose drawn
  split at h
  · obtain ⟨after, dropped, h⟩ := bind_eq_ok.mp h
    cases h
    exact filling.drop dropped
  rename_i inRange
  split at h
  · obtain ⟨after, dropped, h⟩ := bind_eq_ok.mp h
    cases h
    exact filling.drop dropped
  rename_i type type_eq
  split at h
  · split at h
    · obtain ⟨after, dropped, h⟩ := bind_eq_ok.mp h
      cases h
      exact filling.drop dropped
    · obtain ⟨child, found, h⟩ := bind_eq_ok.mp h
      cases h
      exact ⟨under.child held (expect_eq_ok.mp found), filling⟩
  next wanted =>
    have zero : type = 0 := (not_not.mp wanted).trans plain.target
    obtain ⟨filled, front_eq, h⟩ := bind_eq_ok.mp h
    obtain ⟨_, rfl⟩ := guarded_eq_ok.mp front_eq
    rw [plain.start, List.drop_zero, ← filling.length, List.take_length] at h
    split at h
    · cases h
      exact filling
    rename_i new
    rw [indepLeaf_plain plain] at h
    obtain ⟨_, ⟨⟩, h⟩ := bind_eq_ok.mp h
    dsimp only at h
    split at h
    · cases h
      exact filling
    rename_i accepted
    obtain ⟨output, updated, h⟩ := bind_eq_ok.mp h
    obtain ⟨_, rfl⟩ := guarded_eq_ok.mp updated
    obtain ⟨after, dropped, h⟩ := bind_eq_ok.mp h
    cases h
    have notOut : ¬ p.isOut item call.seed = true := by
      intro out
      exact accepted (.inr ⟨zero, out⟩)
    have device := device_of_not_out (by omega) notOut
    exact (filling.set (.inr ⟨new, device, under item held⟩) position).drop dropped

theorem indepSlot_filling {choose : Indep → Holes → Run PlacementError Holes} (plain : call.Plain)
    (root : p.crush.Under top call.bucket) (filling : Filling p call top holes)
    (h : indepSlot p choose fuel call failure holes position = .ok after) :
    Filling p call top after := by
  obtain ⟨_, _, h⟩ := bind_eq_ok.mp h
  split at h
  · cases h
    exact filling
  · exact loop_rule (fun s => p.crush.Under top s.1 ∧ Filling p call top s.2) _
      (fun s next inv turn => indepTurn_meets plain inv turn) ⟨root, filling⟩ h

theorem indepRound_filling {choose : Indep → Holes → Run PlacementError Holes}
    (plain : call.Plain) (root : p.crush.Under top call.bucket)
    (filling : Filling p call top holes)
    (h : indepRound p choose fuel call holes failure = .ok after) : Filling p call top after := by
  unfold indepRound at h
  split at h
  · cases h
    exact filling
  · exact foldlM_rule (Filling p call top)
      (fun s position s' _ known turn => indepSlot_filling plain root known turn) filling h

theorem emptySlot_filling (filling : Filling p call top holes)
    (h : emptySlot holes position = .ok after) : Filling p call top after := by
  obtain ⟨_, updated, h⟩ := bind_eq_ok.mp h
  obtain ⟨_, rfl⟩ := guarded_eq_ok.mp updated
  split at h
  · cases h
    exact filling.set (.inl rfl) position
  obtain ⟨_, _, h⟩ := bind_eq_ok.mp h
  cases h
  have emptied := filling.set (.inl rfl) position
  exact ⟨emptied.sound, emptied.length⟩

theorem chooseIndep_filling (plain : call.Plain) (root : p.crush.Under top call.bucket)
    (filling : Filling p call top holes) (h : p.chooseIndep fuel call holes = .ok after) :
    Filling p call top after := by
  cases fuel with
  | zero => cases h
  | succ fuel =>
    obtain ⟨emptied, emptying, h⟩ := bind_eq_ok.mp h
    have start : Filling p call top emptied :=
      foldlM_rule (Filling p call top) (fun _ _ _ _ known turn => emptySlot_filling known turn)
        filling emptying
    exact foldlM_rule (Filling p call top)
      (fun _ _ _ _ known turn => indepRound_filling plain root known turn) start h

end Placement

end RadosRs.Crush
