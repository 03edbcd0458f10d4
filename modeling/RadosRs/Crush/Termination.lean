import RadosRs.Crush.Devices
import RadosRs.Crush.Graph
import RadosRs.Crush.Straw2

/-!
# Placement comes to an end

With a decoded map and a certified rule `place` gives a result: the loops end, and
nothing on the way panics.

A descent goes from a bucket to one of its items, so the height of the bucket in
the graph becomes smaller with every turn, and it is at most 64 at the start.  A
failed descent counts, and the next one starts from the top with one try less.
Both together are a measure for the loops of `chooseFirstN` (`firstNMeasure`); a
slot of `chooseIndep` makes one descent in each round.

For the rest it is enough that the buffers have a place for each replica
(`Slots.Room`) and that `left` is the number of holes in the output
(`Holes.Counted`).
-/

namespace RadosRs.Crush

open Wire Wire.Reader Fallible Fixed Chains Table
open Retry (Next)
open Std (ExtTreeMap)

/-! ## Decoded maps -/

/-- What decoding ensures of a map. -/
structure Map.Ready (m : Map) : Prop extends m.Wf where
  sound : m.Sound
  valid : m.validateGraph = .ok ()

theorem Map.decode_ready {data : List UInt8} {limits : DecodeLimits} {m : Map}
    (h : Map.decode data limits = .ok m) : m.Ready := by
  have wf := Map.decode_wf h
  unfold Map.decode at h
  split at h
  · cases h
  obtain ⟨_, _, h⟩ := bind_eq_ok.mp h
  obtain ⟨_, valid, h⟩ := bind_eq_ok.mp h
  cases h
  have valid := mapError_eq_ok.mp valid
  exact ⟨wf, Map.sound_of_validateFrom (fun _ => ExtTreeMap.mem_keys.mpr) valid, valid⟩

/-! ## Heights -/

/-- The number of buckets of the longest chain that starts at a bucket. -/
noncomputable def Map.height (m : Map) (id : Int) : Nat := Chains.height m.Nests maxCertifiedDepth id

namespace Map.Ready

variable {m : Map} {id item : Int} {bucket child : Bucket} (ready : m.Ready)
include ready

theorem longest (id : Int) : Longest m.Nests id (m.height id) :=
  longest_height ready.sound.shallow id

theorem height_pos (id : Int) : 0 < m.height id := by
  obtain ⟨_, _, length⟩ := (ready.longest id).attained
  omega

theorem height_le (id : Int) : m.height id ≤ maxCertifiedDepth := by
  obtain ⟨rest, chain, length⟩ := (ready.longest id).attained
  rw [← length]
  exact ready.sound.shallow (id :: rest) chain

/-- A bucket is looked up under its own id. -/
theorem own (found : m.buckets[id]? = some bucket) : m.buckets[bucket.id]? = some bucket := by
  rw [(ready.regular id bucket found).2.1, found]

/-- Going down makes the height smaller. -/
theorem height_lt (held : m.buckets[bucket.id]? = some bucket) (mem : item ∈ bucket.items)
    (found : m.buckets[item]? = some child) : m.height child.id < m.height bucket.id := by
  obtain ⟨negative, own, -⟩ := ready.regular item child found
  rw [own]
  exact (ready.longest bucket.id).lt_of_rel (ready.longest item)
    ⟨bucket, held, mem, negative, mem_iff.mpr ⟨child, found⟩⟩

end Map.Ready

namespace Placement

variable {p : Placement}

/-! ## Choosing the first replicas -/

section FirstN

variable {call : FirstN} {choose : FirstN → Slots → Run PlacementError Slots} {replica n : Nat}
  {s s' : Search}

/-- A call under the certified tunables. -/
structure FirstN.Certified (p : Placement) (call : FirstN) : Prop where
  held : p.crush.buckets[call.bucket.id]? = some call.bucket
  localRetries : call.localRetries = 0
  localFallbackRetries : call.localFallbackRetries = 0
  varyR : call.varyR = 1
  stable : call.stable = true
  tries : call.tries ≤ 51

variable (ready : p.crush.Ready) (certified : call.Certified p)
include certified

/-- Without local retries a failed draw ends the descent. -/
theorem retry_certified (fresh : s.localFailures = 0) (few : s.totalFailures < call.tries)
    (collide : Bool) :
    retry call s collide = .ok (if s.totalFailures + 1 < call.tries then
      .again { s with
        current := call.bucket, localFailures := 0, totalFailures := s.totalFailures + 1 }
      else .done (none, s.slots)) := by
  have small : (s.totalFailures + 1) % 2 ^ 32 = s.totalFailures + 1 := by
    have := certified.tries
    omega
  simp only [retry, redraws, fresh, small, certified.localRetries, certified.localFallbackRetries]
  rw [if_neg (by simp), if_neg (by simp)]
  simp only [bind, Except.bind, Bool.false_eq_true, if_false]
  split <;> rfl

/-- Without local retries every draw is a straw. -/
theorem draw_certified (s : Search) (r : Nat) :
    draw call s r = straw2Choose s.current call.seed r >>= fun item => .ok (item, s) := by
  simp only [draw, fallsBack, certified.localFallbackRetries]
  rfl

/-- A turn that goes on goes down to an item of the bucket, or begins the next descent. -/
theorem firstNTurn_again (fresh : s.localFailures = 0) (few : s.totalFailures < call.tries)
    (h : firstNTurn p choose call replica s = .ok (.again s')) :
    s'.localFailures = 0 ∧
      ((s'.totalFailures = s.totalFailures ∧
          ∃ item ∈ s.current.items, p.crush.buckets[item]? = some s'.current) ∨
        (s'.totalFailures = s.totalFailures + 1 ∧ s'.totalFailures < call.tries ∧
          s'.current = call.bucket)) := by
  have retried {t : Search} {collide : Bool} (h : retry call t collide = .ok (.again s'))
      (localFailures : t.localFailures = s.localFailures)
      (totalFailures : t.totalFailures = s.totalFailures) :
      s'.localFailures = 0 ∧ s'.totalFailures = s.totalFailures + 1 ∧
        s'.totalFailures < call.tries ∧ s'.current = call.bucket := by
    rw [retry_certified certified (localFailures.trans fresh) (totalFailures ▸ few)] at h
    split at h
    next more =>
      cases h
      exact ⟨rfl, by rw [totalFailures], more, rfl⟩
    · cases h
  unfold firstNTurn at h
  split at h
  · obtain ⟨fresh, next⟩ := retried h rfl rfl
    exact ⟨fresh, .inr next⟩
  dsimp only at h
  rw [draw_certified certified] at h
  obtain ⟨⟨item, _⟩, drawn, h⟩ := bind_eq_ok.mp h
  obtain ⟨_, chosen, ⟨⟩⟩ := bind_eq_ok.mp drawn
  dsimp only at h
  split at h
  · cases h
  split at h
  · cases h
  next itemType _ =>
    split at h
    · split at h
      · cases h
      · obtain ⟨child, found, h⟩ := bind_eq_ok.mp h
        cases h
        exact ⟨fresh, .inl ⟨rfl, item, mem_of_straw2Choose chosen, expect_eq_ok.mp found⟩⟩
    obtain ⟨before, _, h⟩ := bind_eq_ok.mp h
    split at h
    · obtain ⟨fresh, next⟩ := retried h rfl rfl
      exact ⟨fresh, .inr next⟩
    obtain ⟨⟨reject, slots⟩, _, h⟩ := bind_eq_ok.mp h
    dsimp only at h
    split at h
    · obtain ⟨fresh, next⟩ := retried h rfl rfl
      exact ⟨fresh, .inr next⟩
    · cases h

/-- Where the loops of a replica are: in a bucket of the map, with tries left. -/
structure Search.Ongoing (p : Placement) (call : FirstN) (s : Search) : Prop where
  held : p.crush.buckets[s.current.id]? = some s.current
  fresh : s.localFailures = 0
  few : s.totalFailures < call.tries

theorem Search.Ongoing.start (tries : 0 < call.tries) (slots : Slots) :
    Search.Ongoing p call { current := call.bucket, slots } :=
  ⟨certified.held, rfl, tries⟩

include ready

/-- A turn that goes on stays in the same descent, lower in the graph, or begins the next. -/
theorem Search.Ongoing.turn (ongoing : s.Ongoing p call)
    (h : firstNTurn p choose call replica s = .ok (.again s')) :
    s'.Ongoing p call ∧
      (s'.totalFailures = s.totalFailures ∧
          p.crush.height s'.current.id < p.crush.height s.current.id ∨
        s.totalFailures < s'.totalFailures) := by
  obtain ⟨fresh, next⟩ := firstNTurn_again certified ongoing.fresh ongoing.few h
  rcases next with ⟨same, item, mem, found⟩ | ⟨more, few, top⟩
  · exact ⟨⟨ready.own found, fresh, same ▸ ongoing.few⟩,
      .inl ⟨same, ready.height_lt ongoing.held mem found⟩⟩
  · exact ⟨⟨top ▸ certified.held, fresh, few⟩, .inr (by omega)⟩

/-- The loops of a replica make at most as many descents as there are tries, and no descent
comes to more than 64 buckets. -/
theorem firstNTurn_trail (tries : 0 < call.tries) (fuel : Nat) (slots : Slots) :
    let turns := trail (firstNTurn p choose call replica) fuel { current := call.bucket, slots }
    (∀ s ∈ turns, s.totalFailures < call.tries) ∧
      ∀ descent, (turns.filter fun s => s.totalFailures = descent).length ≤ maxCertifiedDepth := by
  have start := Search.Ongoing.start certified tries slots
  intro turns
  constructor
  · intro s mem
    exact (trail_rule (Search.Ongoing p call)
      (fun _ _ ongoing step => (ongoing.turn ready certified step).1) start s mem).few
  intro descent
  refine Nat.le_trans (trail_group (Search.Ongoing p call) Search.totalFailures
    (fun s => p.crush.height s.current.id) (fun s _ => ready.height_pos _)
    (fun s _ => ready.height_le _) (fun _ _ ongoing step => ongoing.turn ready certified step)
    start descent) ?_
  split
  · exact Nat.zero_le _
  split
  · exact ready.height_le _
  · exact Nat.le_refl _

/-- What is left of the descents and of the one that is going on. -/
noncomputable def firstNMeasure (p : Placement) (call : FirstN) (s : Search) : Nat :=
  (call.tries - 1 - s.totalFailures) * maxCertifiedDepth + p.crush.height s.current.id

omit certified in
theorem firstNMeasure_lt (ongoing : s'.Ongoing p call)
    (next : s'.totalFailures = s.totalFailures ∧
        p.crush.height s'.current.id < p.crush.height s.current.id ∨
      s.totalFailures < s'.totalFailures) :
    firstNMeasure p call s' < firstNMeasure p call s := by
  unfold firstNMeasure
  rcases next with ⟨same, lower⟩ | more
  · rw [same]
    omega
  have few := ongoing.few
  have low := ready.height_le s'.current.id
  have high := ready.height_pos s.current.id
  have less : call.tries - 1 - s'.totalFailures + 1 ≤ call.tries - 1 - s.totalFailures := by omega
  have := Nat.mul_le_mul_right maxCertifiedDepth less
  rw [Nat.add_mul, Nat.one_mul] at this
  omega

/-- The buffers have a place for each of `n` replicas, and `count` of them are not filled. -/
structure Slots.Room (n : Nat) (slots : Slots) : Prop where
  filled : slots.position + slots.count = n
  output : slots.output.length = n
  leaves : ∀ values, slots.leaves = some values → values.length = n

/-- The calls for the device below a chosen bucket succeed. -/
def ServesLeaves (p : Placement) (choose : FirstN → Slots → Run PlacementError Slots)
    (call : FirstN) (n : Nat) : Prop :=
  call.recurseToLeaf = true → ∀ (item : Int) (bucket : Bucket) (r : Nat) (slots : Slots),
    p.crush.buckets[item]? = some bucket → slots.Room n →
    r ≤ call.replicas + call.parentR + 50 →
    Succeeds (choose (call.deeper bucket slots.position r) slots) (Slots.Room n)

omit ready in
theorem firstNLeaf_total (serves : ServesLeaves p choose call n) {r : Nat} {item type : Int}
    {slots : Slots} (typed : p.itemType item = some type)
    (room : slots.Room n) (left : 0 < slots.count) (small : r ≤ call.replicas + call.parentR + 50) :
    Succeeds (firstNLeaf p choose call r item slots) fun result =>
      result.2.Room n ∧ 0 < result.2.count := by
  unfold firstNLeaf
  refine .ite (fun _ => .pure ⟨room, left⟩) fun leaf => .ite (fun negative => ?_) fun _ => ?_
  · rw [FirstN.subR, if_pos (by rw [certified.varyR]; decide), certified.varyR]
    refine .bind_guarded (by decide) ?_
    split
    · exact .pure ⟨room, left⟩
    rename_i values held
    rw [itemType, if_pos negative] at typed
    obtain ⟨bucket, found, _⟩ := Option.map_eq_some_iff.mp typed
    refine .bind_expect found ?_
    have inner : Slots.Room n { slots with output := values, leaves := none } :=
      ⟨room.filled, room.leaves values held, by simp⟩
    refine .bind (serves (not_not.mp leaf) item bucket r _ found inner small) fun chosen after => ?_
    refine .pure ⟨⟨room.filled, room.output, ?_⟩, left⟩
    rintro _ ⟨⟩
    exact after.output
  · split
    · exact .pure ⟨room, left⟩
    next values held =>
      have length := room.leaves values held
      have filled := room.filled
      refine .bind_guarded (by omega) ?_
      refine .pure ⟨⟨room.filled, room.output, ?_⟩, left⟩
      rintro _ ⟨⟩
      rw [List.length_set, length]

/-- A turn succeeds and leaves the buffers as long as they were. -/
theorem firstNTurn_total (serves : ServesLeaves p choose call n) (inside : replica < call.replicas)
    (small : call.replicas + call.parentR ≤ 1000) (ongoing : s.Ongoing p call)
    (room : s.slots.Room n) (left : 0 < s.slots.count) :
    Succeeds (firstNTurn p choose call replica s)
      (Meets (fun s' => s'.slots.Room n ∧ 0 < s'.slots.count)
        (fun result => result.2.Room n ∧ 0 < result.2.count)) := by
  have retried {t : Search} (collide : Bool) (room : t.slots.Room n) (left : 0 < t.slots.count)
      (localFailures : t.localFailures = s.localFailures)
      (totalFailures : t.totalFailures = s.totalFailures) :
      Succeeds (retry call t collide)
        (Meets (fun s' => s'.slots.Room n ∧ 0 < s'.slots.count)
          (fun result => result.2.Room n ∧ 0 < result.2.count)) := by
    rw [retry_certified certified (localFailures.trans ongoing.fresh) (totalFailures ▸ ongoing.few)]
    refine .ok ?_
    split
    · exact ⟨room, left⟩
    · exact ⟨room, left⟩
  have few := ongoing.few
  have tries := certified.tries
  unfold firstNTurn
  refine .ite (fun _ => retried false room left rfl rfl) fun nonempty => ?_
  dsimp only
  rw [draw_certified certified]
  have fits : replica + call.parentR + s.totalFailures ≤ u32Max := by
    unfold u32Max
    omega
  obtain ⟨item, _, chosen⟩ := straw2Choose_total (ε := PlacementError) call.seed
    ((ready.regular _ _ ongoing.held).2.2) nonempty fits
  refine .bind (.bind (.of_eq chosen rfl) fun _ same => .ok (congrArg (·, s) same)) fun drawn same => ?_
  subst same
  dsimp only
  refine .ite (fun _ => .pure ⟨room, left⟩) fun _ => ?_
  split
  · exact .pure ⟨room, left⟩
  rename_i type typed
  refine .ite (fun _ => .ite (fun _ => .pure ⟨room, left⟩) fun negative => ?_) fun _ => ?_
  · rw [itemType, if_pos (by omega)] at typed
    obtain ⟨child, found, _⟩ := Option.map_eq_some_iff.mp typed
    exact .bind_expect found (.pure ⟨room, left⟩)
  have filled := room.filled
  have length := room.output
  refine .bind_guarded (by omega) ?_
  refine .ite (fun _ => retried true room left rfl rfl) fun _ => ?_
  refine .bind (firstNLeaf_total certified serves typed room left (by omega)) fun result kept => ?_
  refine .ite (fun _ => retried false kept.1 kept.2 rfl rfl) fun _ => .pure kept

variable {fuel : Nat}

theorem firstNReplica_total (serves : ServesLeaves p choose call n)
    (inside : replica < call.replicas) (small : call.replicas + call.parentR ≤ 1000)
    (tries : 0 < call.tries) (enough : call.tries * maxCertifiedDepth < fuel) {slots : Slots}
    (room : slots.Room n) :
    Succeeds (firstNReplica p choose fuel call slots replica) (Slots.Room n) := by
  unfold firstNReplica
  refine .ite (fun _ => .pure room) fun left => ?_
  have turns : ∀ s : Search, s.Ongoing p call ∧ s.slots.Room n ∧ 0 < s.slots.count →
      Succeeds (firstNTurn p choose call replica s)
        (Advances (fun s => s.Ongoing p call ∧ s.slots.Room n ∧ 0 < s.slots.count)
          (fun result : Option Int × Slots => result.2.Room n ∧ 0 < result.2.count)
          (firstNMeasure p call) s) := by
    rintro s ⟨ongoing, room, left⟩
    obtain ⟨next, step, kept⟩ :=
      firstNTurn_total ready certified serves inside small ongoing room left
    refine ⟨next, step, ?_⟩
    cases next with
    | again s' =>
      obtain ⟨ongoing', moved⟩ := ongoing.turn ready certified step
      exact ⟨⟨ongoing', kept⟩, firstNMeasure_lt ready ongoing' moved⟩
    | done result => exact kept
  have start : firstNMeasure p call { current := call.bucket, slots } < fuel := by
    have low := ready.height_le call.bucket.id
    unfold firstNMeasure
    have : (call.tries - 1) * maxCertifiedDepth + maxCertifiedDepth =
        call.tries * maxCertifiedDepth := by
      rw [← Nat.succ_mul]
      congr 1
      omega
    simp only [Nat.sub_zero]
    omega
  refine .bind (loop_total _ _ _ turns
    ⟨.start certified tries slots, room, Nat.pos_of_ne_zero left⟩ start) ?_
  rintro ⟨found, after⟩ ⟨room, left⟩
  have filled : after.position + after.count = n := room.filled
  have length : after.output.length = n := room.output
  have free : 0 < after.count := left
  cases found with
  | none => exact .pure room
  | some item =>
    refine .bind_guarded (by omega) ?_
    refine .pure ⟨?_, by rw [List.length_set, length], room.leaves⟩
    dsimp only
    omega

theorem chooseFirstN_total (serves : ServesLeaves p (p.chooseFirstN fuel) call n)
    (small : call.replicas + call.parentR ≤ 1000) (tries : 0 < call.tries)
    (enough : call.tries * maxCertifiedDepth < fuel) {slots : Slots} (room : slots.Room n) :
    Succeeds (p.chooseFirstN (fuel + 1) call slots) (Slots.Room n) := by
  rw [chooseFirstN, certified.stable]
  refine foldlM_total (Slots.Room n) (fun slots replica mem room => ?_) room
  have inside : replica < call.replicas := by
    have := (List.mem_range'_1.mp mem).2
    simp only [if_true] at this
    omega
  exact firstNReplica_total ready certified serves inside small tries enough room

/-- The call for the device below a chosen bucket makes one descent. -/
theorem servesLeaves (once : call.recurseTries = 1) (small : call.replicas + call.parentR ≤ 500)
    (enough : maxCertifiedDepth < fuel) : ServesLeaves p (p.chooseFirstN (fuel + 1)) call n := by
  intro _ item bucket r slots found room few
  have one : (call.deeper bucket slots.position r).tries = 1 := once
  have deeper : (call.deeper bucket slots.position r).Certified p :=
    ⟨ready.own found, certified.localRetries, certified.localFallbackRetries, certified.varyR,
      certified.stable, by omega⟩
  refine chooseFirstN_total ready deeper nofun ?_ (by omega) ?_ room
  · simp only [FirstN.deeper, certified.stable, if_true]
    omega
  · rw [one, Nat.one_mul]
    exact enough

end FirstN

/-! ## Choosing for each slot -/

section Indep

variable {call : Indep} {choose : Indep → Holes → Run PlacementError Holes}
  {failure position n : Nat} {current : Bucket} {holes : Holes}

/-- A call of a certified erasure rule, for `n` slots. -/
structure Indep.Certified (p : Placement) (n : Nat) (call : Indep) : Prop where
  plain : call.Plain
  held : p.crush.buckets[call.bucket.id]? = some call.bucket
  stop : call.stop = n
  replicas : call.replicas = n
  parentR : call.parentR = 0
  tries : call.tries = 100

/-- What is left to fill is the number of holes. -/
structure Holes.Counted (n : Nat) (holes : Holes) : Prop where
  length : holes.output.length = n
  left : holes.left = holes.output.count itemNone

variable {next : Bucket × Holes}

/-- A turn that goes on goes down to an item of the bucket. -/
theorem indepTurn_again
    (h : indepTurn p choose call failure position (current, holes) = .ok (.again next)) :
    next.2 = holes ∧ ∃ item ∈ current.items, p.crush.buckets[item]? = some next.1 := by
  unfold indepTurn at h
  dsimp only at h
  split at h
  · cases h
  obtain ⟨item, drawn, h⟩ := bind_eq_ok.mp h
  split at h
  · obtain ⟨_, _, ⟨⟩⟩ := bind_eq_ok.mp h
  split at h
  · obtain ⟨_, _, ⟨⟩⟩ := bind_eq_ok.mp h
  next type _ =>
    split at h
    · split at h
      · obtain ⟨_, _, ⟨⟩⟩ := bind_eq_ok.mp h
      · obtain ⟨child, found, h⟩ := bind_eq_ok.mp h
        cases h
        exact ⟨rfl, item, mem_of_straw2Choose drawn, expect_eq_ok.mp found⟩
    obtain ⟨filled, _, h⟩ := bind_eq_ok.mp h
    split at h
    · cases h
    obtain ⟨⟨reject, after⟩, _, h⟩ := bind_eq_ok.mp h
    dsimp only at h
    split at h
    · cases h
    · obtain ⟨_, _, h⟩ := bind_eq_ok.mp h
      obtain ⟨_, _, ⟨⟩⟩ := bind_eq_ok.mp h

/-- A hole that is filled is one less. -/
theorem Holes.Counted.fill (counted : holes.Counted n) (inside : position < n) {item : Int}
    (hole : holes.output[position]? = some itemNone) (device : item ≠ itemNone) :
    Succeeds ({ holes with output := holes.output.set position item }.drop)
      (Holes.Counted n) := by
  have length := counted.length
  have here : holes.output[position] = itemNone := by
    rw [List.getElem?_eq_getElem (by omega)] at hole
    exact Option.some.inj hole
  have some_hole : 0 < holes.output.count itemNone :=
    List.count_pos_iff.mpr (List.mem_of_getElem? hole)
  have left := counted.left
  refine .bind_guarded (by dsimp only; omega) ?_
  refine .pure ⟨by rw [List.length_set, length], ?_⟩
  dsimp only
  rw [List.count_set (by omega), here, left]
  simp [device]

theorem emptySlot_empty (inside : position < n) :
    emptySlot (emptyHoles n) position = .ok (emptyHoles n) := by
  have same : (empty n).set position itemNone = empty n := List.set_replicate_self
  have within : position < (empty n).length := by rwa [empty, List.length_replicate]
  unfold emptySlot
  refine bind_eq_ok.mpr ⟨empty n, guarded_eq_ok.mpr ⟨within, same⟩, ?_⟩
  exact bind_eq_ok.mpr ⟨empty n, guarded_eq_ok.mpr ⟨within, same⟩, rfl⟩

theorem counted_emptyHoles (n : Nat) : (emptyHoles n).Counted n :=
  ⟨by simp [emptyHoles, empty], by simp [emptyHoles, empty]⟩

theorem mem_positions (certified : call.Certified p n) (mem : position ∈ call.positions) :
    position < n := by
  have := (List.mem_range'_1.mp mem).2
  rw [certified.plain.start, certified.stop] at this
  omega

variable (ready : p.crush.Ready) (certified : call.Certified p n) (few : n ≤ 64)

include ready in
/-- The turns of a descent go down in the graph. -/
theorem indepTurn_lower (held : p.crush.buckets[current.id]? = some current)
    (h : indepTurn p choose call failure position (current, holes) = .ok (.again next)) :
    p.crush.buckets[next.1.id]? = some next.1 ∧
      p.crush.height next.1.id < p.crush.height current.id := by
  obtain ⟨_, item, mem, found⟩ := indepTurn_again h
  exact ⟨ready.own found, ready.height_lt held mem found⟩

include ready certified in
/-- No descent for a slot comes to more than 64 buckets. -/
theorem indepTurn_trail (fuel : Nat) (holes : Holes) :
    (trail (indepTurn p choose call failure position) fuel (call.bucket, holes)).length ≤
      maxCertifiedDepth :=
  Nat.le_trans
    (trail_length (fun s => p.crush.buckets[s.1.id]? = some s.1) (fun s => p.crush.height s.1.id)
      (fun _ _ => ready.height_pos _) (fun _ _ held step => indepTurn_lower ready held step)
      certified.held)
    (ready.height_le _)

include ready certified few

theorem indepTurn_total (round : failure < 100) (inside : position < n)
    (held : p.crush.buckets[current.id]? = some current) (counted : holes.Counted n)
    (hole : holes.output[position]? = some itemNone) :
    Succeeds (indepTurn p choose call failure position (current, holes))
      (Meets (fun s => s.2 = holes) (Holes.Counted n)) := by
  unfold indepTurn
  dsimp only
  refine .ite (fun _ => .pure counted) fun nonempty => ?_
  have product : call.replicas * failure ≤ 64 * 100 :=
    Nat.mul_le_mul (certified.replicas ▸ few) (by omega)
  have fits : position + call.parentR + call.replicas * failure ≤ u32Max := by
    rw [certified.parentR, u32Max]
    omega
  obtain ⟨item, mem, chosen⟩ := straw2Choose_total (ε := PlacementError) call.seed
    (ready.regular _ _ held).2.2 nonempty fits
  have exists_item := ready.sound.items _ current held item mem
  have devices := ready.nonneg
  refine .bind_of_eq chosen ?_
  refine .ite (fun outside => ?_) fun inRange => ?_
  · rcases exists_item with ⟨_, _⟩ | ⟨_, _⟩ <;> omega
  split
  next untyped =>
    rw [itemType] at untyped
    split at untyped
    next negative =>
      rcases exists_item with ⟨_, _⟩ | ⟨_, bucket⟩
      · omega
      obtain ⟨bucket, found⟩ := mem_iff.mp bucket
      rw [found] at untyped
      cases untyped
    · cases untyped
  next type typed =>
    refine .ite (fun other => .ite (fun device => ?_) fun negative => ?_) fun wanted => ?_
    · rw [itemType, if_neg (by omega)] at typed
      cases typed
      exact absurd certified.plain.target.symm other
    · rw [itemType, if_pos (by omega)] at typed
      obtain ⟨child, found, _⟩ := Option.map_eq_some_iff.mp typed
      exact .bind_expect found (.pure rfl)
    have length := counted.length
    have stop := certified.stop
    refine .bind_guarded (by omega) ?_
    refine .ite (fun _ => .pure counted) fun _ => ?_
    rw [indepLeaf_plain certified.plain]
    refine .bind (.ok rfl) fun _ same => ?_
    subst same
    dsimp only
    refine .ite (fun _ => .pure counted) fun accepted => ?_
    refine .bind_guarded (by omega) ?_
    have zero : type = 0 := (not_not.mp wanted).trans certified.plain.target
    have device : item ≠ itemNone := by
      have := ready.devices
      omega
    exact .bind (counted.fill inside hole device) fun _ after => .pure after

theorem indepSlot_total (round : failure < 100) (inside : position < n) {fuel : Nat}
    (enough : maxCertifiedDepth < fuel) (counted : holes.Counted n) :
    Succeeds (indepSlot p choose fuel call failure holes position) (Holes.Counted n) := by
  have length := counted.length
  have here := List.getElem?_eq_getElem (l := holes.output) (i := position) (by omega)
  unfold indepSlot
  refine .bind_expect here ?_
  refine .ite (fun _ => .pure counted) fun hole => ?_
  rw [not_not.mp hole] at here
  have turns : ∀ s : Bucket × Holes, p.crush.buckets[s.1.id]? = some s.1 ∧ s.2 = holes →
      Succeeds (indepTurn p choose call failure position s)
        (Advances (fun s => p.crush.buckets[s.1.id]? = some s.1 ∧ s.2 = holes) (Holes.Counted n)
          (fun s => p.crush.height s.1.id) s) := by
    rintro ⟨current, _⟩ ⟨held, rfl⟩
    have turn : Succeeds (indepTurn p choose call failure position (current, _)) _ :=
      indepTurn_total ready certified few round inside held counted here
    obtain ⟨next, step, kept⟩ := turn
    refine ⟨next, step, ?_⟩
    cases next with
    | again s' =>
      obtain ⟨held', lower⟩ := indepTurn_lower ready held step
      exact ⟨⟨held', kept⟩, lower⟩
    | done after => exact kept
  exact loop_total _ _ _ turns ⟨certified.held, rfl⟩
    (Nat.lt_of_le_of_lt (ready.height_le _) enough)

theorem chooseIndep_total {fuel : Nat} (enough : maxCertifiedDepth < fuel) :
    Succeeds (p.chooseIndep (fuel + 1) call (emptyHoles n)) (Holes.Counted n) := by
  rw [chooseIndep]
  have emptied : Succeeds (call.positions.foldlM emptySlot (emptyHoles n)) (· = emptyHoles n) := by
    refine foldlM_total (· = emptyHoles n) (fun _ position mem same => ?_) rfl
    subst same
    exact .of_eq (emptySlot_empty (mem_positions certified mem)) rfl
  refine .bind emptied fun _ same => ?_
  subst same
  refine foldlM_total (Holes.Counted n) (fun holes failure mem counted => ?_) (counted_emptyHoles n)
  have round : failure < 100 := certified.tries ▸ List.mem_range.mp mem
  refine .ite (fun _ => .ok counted) fun _ => ?_
  refine foldlM_total (Holes.Counted n) (fun holes position mem counted => ?_) counted
  exact indepSlot_total ready certified few round (mem_positions certified mem) enough counted

end Indep

/-! ## Running a certified rule -/

section Rules

variable {fuel n : Nat} {root : Int} {bucket : Bucket} {rule : Rule}

/-- The tunables that the choice functions read. -/
structure Tuned (m : Map) : Prop where
  localTries : m.chooseLocalTries = 0
  localFallbackTries : m.chooseLocalFallbackTries = 0
  totalTries : m.chooseTotalTries = 50
  descendOnce : m.chooseleafDescendOnce = 1
  varyR : m.chooseleafVaryR = 1
  stable : m.chooseleafStable = 1

theorem tuned_of_certifiedTunables {m : Map} (h : m.certifiedTunables = true) : Tuned m := by
  simp only [Map.certifiedTunables, Bool.and_eq_true, beq_iff_eq] at h
  obtain ⟨⟨⟨⟨⟨⟨⟨⟨localTries, fallback⟩, total⟩, once⟩, vary⟩, _⟩, stable⟩, _⟩, _⟩ := h
  exact ⟨localTries, fallback, total, once, vary, stable⟩

theorem certified_ruleFirstN (held : p.crush.buckets[bucket.id]? = some bucket)
    (tuned : Tuned p.crush) (seed : UInt32) (n : Nat) (choose : RuleStep) :
    (ruleFirstN p bucket seed n choose).Certified p :=
  ⟨held, tuned.localTries, tuned.localFallbackTries, tuned.varyR, by simp [ruleFirstN, tuned.stable],
    by simp [ruleFirstN, tuned.totalTries]⟩

theorem certified_ruleIndep (held : p.crush.buckets[bucket.id]? = some bucket) (seed : UInt32)
    (n : Nat) : (ruleIndep bucket seed n).Certified p n :=
  ⟨⟨rfl, rfl, rfl⟩, held, rfl, rfl, rfl, rfl⟩

/-- The fuel that is enough for every certified rule. -/
def enoughFuel : Nat := 51 * maxCertifiedDepth + 2

theorem ruleFirstN_total (ready : p.crush.Ready) (held : p.crush.buckets[bucket.id]? = some bucket)
    (tuned : Tuned p.crush) (few : n ≤ 64) (seed : UInt32) (choose : RuleStep)
    (enough : enoughFuel ≤ fuel) :
    Succeeds (p.chooseFirstN fuel (ruleFirstN p bucket seed n choose) (emptySlots n))
      (Slots.Room n) := by
  unfold enoughFuel maxCertifiedDepth at enough
  obtain ⟨fuel, rfl⟩ : ∃ inner, fuel = inner + 2 := ⟨fuel - 2, by omega⟩
  have certified := certified_ruleFirstN held tuned seed n choose
  have once : (ruleFirstN p bucket seed n choose).recurseTries = 1 := by
    simp [ruleFirstN, tuned.descendOnce]
  have tries : (ruleFirstN p bucket seed n choose).tries = 51 := by
    simp [ruleFirstN, tuned.totalTries]
  have size : (ruleFirstN p bucket seed n choose).replicas +
      (ruleFirstN p bucket seed n choose).parentR = n := rfl
  refine chooseFirstN_total ready certified
    (servesLeaves ready certified once (by omega) (by unfold maxCertifiedDepth; omega)) (by omega)
    (by omega) (by rw [tries, maxCertifiedDepth]; omega) ?_
  refine ⟨Nat.zero_add n, List.length_replicate, ?_⟩
  rintro _ ⟨⟩
  exact List.length_replicate

/-- What a replicated rule emits of the slots. -/
def emitted (n : Nat) (choose : RuleStep) (slots : Slots) : List Int :=
  (if choose.operation = ruleChooseleafFirstN then slots.leaves.getD (empty n)
    else slots.output).take slots.position

theorem chosenItems_total (step : RuleStep) (work : Work) {found : Nat}
    (output : work.output.length = n) (leaves : work.leaves.length = n) (room : found ≤ n) :
    Succeeds (chosenItems step work found) (·.length = n) := by
  unfold chosenItems
  refine .ite (fun _ => .bind_guarded (by omega) (.of_eq (guarded_eq_ok.mpr ⟨by omega, rfl⟩) ?_))
    fun _ => .ok output
  rw [List.length_append, List.length_take, List.length_drop]
  omega

theorem rule_replicated_total (ready : p.crush.Ready) (type : rule.ruleType = ruleTypeReplicated)
    (form : p.crush.certifiedRoot rule = some root) (held : p.crush.buckets[root]? = some bucket)
    (tuned : Tuned p.crush) (positive : 0 < n) (few : n ≤ 64) (enough : enoughFuel ≤ fuel)
    (seed : UInt32) :
    ∃ choose ∈ rule.steps, ∃ slots,
      p.chooseFirstN fuel (ruleFirstN p bucket seed n choose) (emptySlots n) = .ok slots ∧
        p.rule fuel rule seed n = .ok (emitted n choose slots) := by
  obtain ⟨choose, mem, -, runs⟩ :=
    rule_replicated_eq type form held (ready.root_neg held) positive few fuel seed
  obtain ⟨slots, called, room⟩ :=
    ruleFirstN_total ready (ready.own held) tuned few seed choose enough
  have leaves : (slots.leaves.getD (empty n)).length = n := by
    cases here : slots.leaves with
    | none => exact List.length_replicate
    | some values => exact room.leaves values here
  have filled := room.filled
  obtain ⟨items, items_eq, length⟩ := chosenItems_total choose (.chosen p n root slots) room.output
    leaves (Nat.le_of_add_right_le filled.le)
  refine ⟨choose, mem, slots, called, ?_⟩
  rw [runs, called, ok_bind, items_eq, ok_bind, Nat.min_eq_right (by omega)]
  exact guarded_eq_ok.mpr ⟨by omega, take_of_chosenItems items_eq⟩

theorem rule_erasure_total (ready : p.crush.Ready) (type : rule.ruleType ≠ ruleTypeReplicated)
    (form : p.crush.certifiedRoot rule = some root) (held : p.crush.buckets[root]? = some bucket)
    (positive : 0 < n) (few : n ≤ 64) (enough : enoughFuel ≤ fuel) (seed : UInt32) :
    ∃ holes, p.chooseIndep fuel (ruleIndep bucket seed n) (emptyHoles n) = .ok holes ∧
      p.rule fuel rule seed n = .ok holes.output := by
  unfold enoughFuel maxCertifiedDepth at enough
  obtain ⟨fuel, rfl⟩ : ∃ inner, fuel = inner + 1 := ⟨fuel - 1, by omega⟩
  have deep : maxCertifiedDepth < fuel := by
    unfold maxCertifiedDepth
    omega
  obtain ⟨holes, called, counted⟩ :=
    chooseIndep_total ready (certified_ruleIndep (ready.own held) seed n) few deep
  refine ⟨holes, called, ?_⟩
  rw [rule_erasure_eq type form held (ready.root_neg held) positive few, called, ok_bind]
  exact guarded_eq_ok.mpr ⟨counted.length.ge, List.take_of_length_le counted.length.le⟩

end Rules

end Placement

/-! ## Placement -/

section Place

variable {m : Map} {ruleId replicas fuel : Nat} {rule : Rule} {seed : UInt32} {weights : List Nat}

/-- A rule that `place` runs. -/
structure Map.Runs (m : Map) (ruleId : Nat) (rule : Rule) : Prop where
  found : m.rules[ruleId]? = some rule
  type : rule.ruleType = ruleTypeReplicated ∨ rule.ruleType = ruleTypeErasure
  certified : m.validateCertifiedRule rule = .ok ()

theorem Map.Runs.root (runs : m.Runs ruleId rule) :
    ∃ root bucket, m.certifiedRoot rule = some root ∧ m.buckets[root]? = some bucket ∧
      Placement.Tuned m := by
  have certified := runs.certified
  unfold Map.validateCertifiedRule at certified
  split at certified
  · cases certified
  rename_i root form
  split at certified
  next checked =>
    obtain ⟨bucket, held⟩ := mem_iff.mp checked.1
    exact ⟨root, bucket, form, held, Placement.tuned_of_certifiedTunables checked.2.2⟩
  · cases certified

theorem Map.place_of_rule {result : List Int} (ready : m.Ready) (runs : m.Runs ruleId rule)
    (positive : 1 ≤ replicas) (few : replicas ≤ maxCertifiedReplicas)
    (ran : Placement.rule ⟨m, weights⟩ fuel rule seed replicas = .ok result) :
    m.place fuel ruleId seed replicas weights = .ok result := by
  refine bind_eq_ok.mpr ⟨(), mapError_eq_ok.mpr ready.valid, ?_⟩
  unfold Map.placeValidated
  rw [if_neg (by omega), runs.found]
  dsimp only
  rw [if_neg (by have := runs.type; tauto)]
  exact bind_eq_ok.mpr ⟨(), runs.certified, ran⟩

/-- The descents of the call that a replicated rule makes: 51 for each replica, with 64 buckets
each. -/
def Placement.FirstN.Bounded (p : Placement) (call : Placement.FirstN) : Prop :=
  ∀ (choose : Placement.FirstN → Placement.Slots → Run PlacementError Placement.Slots)
    (replica fuel : Nat) (slots : Placement.Slots),
    let turns := trail (p.firstNTurn choose call replica) fuel { current := call.bucket, slots }
    (∀ s ∈ turns, s.totalFailures < 51) ∧
      ∀ descent, (turns.filter fun s => s.totalFailures = descent).length ≤ 64

/-- The descents of the call that an erasure rule makes: one for each slot in each of 100 rounds,
with 64 buckets each. -/
def Placement.Indep.Bounded (p : Placement) (call : Placement.Indep) : Prop :=
  call.tries = 100 ∧
    ∀ (choose : Placement.Indep → Placement.Holes → Run PlacementError Placement.Holes)
      (failure position fuel : Nat) (holes : Placement.Holes),
      (trail (p.indepTurn choose call failure position) fuel (call.bucket, holes)).length ≤ 64

open Placement in
/-- A certified rule of a decoded map always places: a replicated rule with one call of
`chooseFirstN` and an erasure rule with one call of `chooseIndep`, whose descents are bounded. -/
theorem place_terminates {data : List UInt8} {limits : DecodeLimits}
    (decoded : Map.decode data limits = .ok m) (runs : m.Runs ruleId rule) (seed : UInt32)
    (positive : 1 ≤ replicas) (few : replicas ≤ 64) (weights : List Nat)
    (enough : enoughFuel ≤ fuel) :
    ∃ root bucket, rule.takeBucket = some root ∧ m.buckets[root]? = some bucket ∧
      (rule.ruleType = ruleTypeReplicated → ∃ choose ∈ rule.steps, ∃ slots,
        chooseFirstN ⟨m, weights⟩ fuel (ruleFirstN ⟨m, weights⟩ bucket seed replicas choose)
          (emptySlots replicas) = .ok slots ∧
        m.place fuel ruleId seed replicas weights = .ok (emitted replicas choose slots) ∧
        (ruleFirstN ⟨m, weights⟩ bucket seed replicas choose).Bounded ⟨m, weights⟩) ∧
      (rule.ruleType = ruleTypeErasure → ∃ holes,
        chooseIndep ⟨m, weights⟩ fuel (ruleIndep bucket seed replicas)
          (emptyHoles replicas) = .ok holes ∧
        m.place fuel ruleId seed replicas weights = .ok holes.output ∧
        (ruleIndep bucket seed replicas).Bounded ⟨m, weights⟩) := by
  have ready := Map.decode_ready decoded
  obtain ⟨root, bucket, form, held, tuned⟩ := runs.root
  have own := ready.own held
  refine ⟨root, bucket, takeBucket_of_certifiedRoot form, held, fun type => ?_, fun type => ?_⟩
  · obtain ⟨choose, mem, slots, called, ran⟩ := rule_replicated_total (p := ⟨m, weights⟩) ready type
      form held tuned positive few enough seed
    refine ⟨choose, mem, slots, called, Map.place_of_rule ready runs positive few ran, ?_⟩
    intro leafs replica fuel slots
    have tries : m.chooseTotalTries + 1 = 51 := by rw [tuned.totalTries]
    refine And.imp (fun few s mem => ?_) id (firstNTurn_trail (p := ⟨m, weights⟩) ready
      (certified_ruleFirstN own tuned seed replicas choose) (Nat.succ_pos _) fuel slots)
    exact tries ▸ few s mem
  · have other : rule.ruleType ≠ ruleTypeReplicated := by
      rw [type]
      decide
    obtain ⟨holes, called, ran⟩ := rule_erasure_total (p := ⟨m, weights⟩) ready other form held
      positive few enough seed
    refine ⟨holes, called, Map.place_of_rule ready runs positive few ran, rfl, ?_⟩
    intro leafs failure position fuel holes
    exact indepTurn_trail (p := ⟨m, weights⟩) ready (certified_ruleIndep own ..) fuel holes

theorem place_terminates_hosts :
    Map.sampleMap.Runs 0 Map.sampleReplicated ∧ ∃ result,
      Map.sampleMap.place Placement.enoughFuel 0 7 2 Map.sampleWeights = .ok result := by
  have runs : Map.sampleMap.Runs 0 Map.sampleReplicated :=
    ⟨by decide, .inl rfl, by decide⟩
  obtain ⟨_, _, _, _, replicated, _⟩ := place_terminates Map.decode_sampleBytes runs 7
    (by decide : 1 ≤ 2) (by decide : 2 ≤ 64) Map.sampleWeights (Nat.le_refl Placement.enoughFuel)
  obtain ⟨_, _, _, _, placed, _⟩ := replicated rfl
  exact ⟨runs, _, placed⟩

end Place

end RadosRs.Crush
