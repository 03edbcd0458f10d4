import RadosRs.Crush.Choose
import RadosRs.Lib.Table

/-!
# The devices a rule emits

A decoded map has negative bucket ids, and its devices are numbered by 32-bit
values below the hole marker.  With that, what the choice functions promise
carries over to the result of `place`: a replicated rule emits devices below the
bucket it takes, a different one for each replica, and an erasure rule has a slot
for each replica with such a device or a hole in it.
-/

namespace RadosRs.Crush

open Wire Wire.Reader Fallible Selection
open Std (ExtTreeMap)

/-! ## Decoded maps -/

/-- Every bucket is known by its own id, which is negative, and has a weight for each item. -/
def Regular (buckets : ExtTreeMap Int Bucket) : Prop :=
  ∀ (id : Int) (bucket : Bucket), buckets[id]? = some bucket →
    id < 0 ∧ bucket.id = id ∧ bucket.itemWeights.length = bucket.items.length

/-- What decoding ensures of the tables. -/
structure Map.Wf (m : Map) : Prop where
  regular : Regular m.buckets
  nonneg : 0 ≤ m.maxDevices
  devices : m.maxDevices ≤ itemNone

variable (limits : DecodeLimits)

theorem gives_decodeBucket {buckets : ExtTreeMap Int Bucket} (h : Regular buckets) (index : Nat) :
    Gives (decodeBucket limits buckets index) Regular := by
  refine .skip fun algorithm => .ite (fun _ => .pure h) fun _ => .skip fun _ => .skip fun id => ?_
  iterate 6 refine .skip fun _ => ?_
  refine .bind .rejectIf fun _ checked => .skip fun _ => .skip fun _ => .skip fun _ => ?_
  refine .bind (.times .any) fun items items_length => ?_
  refine .bind (.times .any) fun itemWeights weights_length => .pure ?_
  intro other bucket found
  rw [Table.lookup_insert] at found
  split at found
  next same =>
    cases found
    have numbered : id = -1 - index := by
      by_contra wrong
      exact checked (.inl wrong)
    exact ⟨by omega, same, weights_length.1.trans items_length.1.symm⟩
  · exact h other bucket found

variable {m : Map}

theorem gives_optional {P : Map → Prop} {bytes : Nat} {part : Reader DecodeError Map}
    (without : P m) (with_part : Gives part P) : Gives (optional bytes m part) P :=
  .skip fun _ => .ite (fun _ => with_part) fun _ => .pure without

/-- The tunables come after the tables and leave them alone. -/
def Map.SameTables (m m' : Map) : Prop :=
  m'.buckets = m.buckets ∧ m'.maxDevices = m.maxDevices

theorem gives_decodeTunables (m : Map) : Gives (decodeTunables limits m) m.SameTables := by
  have part {bytes : Nat} {m' : Map} {read : Reader DecodeError Map}
      (known : m.SameTables m') (kept : Gives read m'.SameTables) :
      Gives (optional bytes m' read) m.SameTables :=
    gives_optional known (kept.mono fun _ same => ⟨same.1.trans known.1, same.2.trans known.2⟩)
  refine .bind (part ⟨rfl, rfl⟩ ?_) fun m₁ h₁ => .bind (part h₁ ?_) fun m₂ h₂ =>
    .bind (part h₂ ?_) fun m₃ h₃ => .bind (part h₃ ?_) fun m₄ h₄ => .bind (part h₄ ?_) fun m₅ h₅ =>
    .bind (part h₅ ?_) fun m₆ h₆ => .bind (part h₆ ?_) fun m₇ h₇ => part h₇ ?_
  · exact .skip fun _ => .skip fun _ => .skip fun _ => .skip fun _ => .pure ⟨rfl, rfl⟩
  · exact .skip fun _ => .pure ⟨rfl, rfl⟩
  · exact .skip fun _ => .pure ⟨rfl, rfl⟩
  · exact .skip fun _ => .pure ⟨rfl, rfl⟩
  · exact .skip fun _ => .pure ⟨rfl, rfl⟩
  · exact .skip fun _ => .pure ⟨rfl, rfl⟩
  · exact .skip fun _ => .skip fun _ => .skip fun _ => .skip fun _ => .skip fun _ => .pure ⟨rfl, rfl⟩
  · exact .skip fun _ => .skip fun _ => .pure ⟨rfl, rfl⟩

theorem gives_decodeTables : Gives (decodeTables limits) Map.Wf := by
  iterate 4 refine .skip fun _ => ?_
  refine .bind gives_i32 fun maxDevices bounds => .skip fun _ => .bind .rejectIf fun _ checked => ?_
  refine .bind (.foldlM (fun _ known index _ => gives_decodeBucket limits known index)
    (by simp [Regular])) fun buckets regular => ?_
  iterate 4 refine .skip fun _ => ?_
  refine .bind (gives_decodeTunables limits _) ?_
  rintro m ⟨sameBuckets, sameDevices⟩
  iterate 3 refine .skip fun _ => ?_
  refine .pure ⟨sameBuckets ▸ regular, sameDevices ▸ ?_, sameDevices ▸ ?_⟩
  · exact not_lt.mp fun negative => checked (.inr (.inr (.inr (.inl negative))))
  · show maxDevices ≤ 2 ^ 31 - 1
    omega

theorem Map.decode_wf {data : List UInt8} {limits : DecodeLimits}
    (h : Map.decode data limits = .ok m) : m.Wf := by
  unfold Map.decode at h
  split at h
  · cases h
  obtain ⟨⟨_, _⟩, tables, h⟩ := bind_eq_ok.mp h
  obtain ⟨_, _, h⟩ := bind_eq_ok.mp h
  cases h
  exact gives_decodeTables limits _ _ _ tables

/-! ## Certified rules -/

/-- The bucket a rule takes. -/
def Rule.takeBucket (rule : Rule) : Option Int :=
  (rule.steps.find? fun step => step.operation == ruleTake).map RuleStep.argument1

/-- The choose step of a certified replicated rule. -/
structure RuleStep.Certified (choose : RuleStep) : Prop where
  operation : choose.operation = ruleChooseFirstN ∨ choose.operation = ruleChooseleafFirstN
  argument1 : choose.argument1 = 0
  suited : choose.operation = ruleChooseleafFirstN ↔ choose.argument2 ≠ 0

theorem certified_of_certifiedChoose {choose : RuleStep} (h : m.certifiedChoose choose = true) :
    choose.Certified := by
  simp only [Map.certifiedChoose, Bool.or_eq_true, beq_iff_eq, Bool.and_eq_true,
    decide_eq_true_eq] at h
  rcases h with rfl | ⟨⟨⟨⟨leaf, zero⟩, positive⟩, _⟩, _⟩
  · exact ⟨.inl rfl, rfl, by decide⟩
  · exact ⟨.inr leaf, zero, by simp [leaf]; omega⟩

variable {rule : Rule} {root : Int}

theorem certifiedRoot_replicated (type : rule.ruleType = ruleTypeReplicated)
    (h : m.certifiedRoot rule = some root) :
    ∃ take choose, rule.steps = [take, choose, Map.emitStep] ∧ take.operation = ruleTake ∧
      take.argument1 = root ∧ choose.Certified := by
  rw [Map.certifiedRoot, if_pos type] at h
  split at h
  next take choose emit steps =>
    split at h
    next checked =>
      obtain ⟨taken, rfl, certified⟩ := checked
      exact ⟨take, choose, steps, taken, Option.some.inj h,
        certified_of_certifiedChoose certified⟩
    · cases h
  · cases h

theorem certifiedRoot_erasure (type : rule.ruleType ≠ ruleTypeReplicated)
    (h : m.certifiedRoot rule = some root) :
    ∃ take, rule.steps = [⟨ruleSetChooseleafTries, 5, 0⟩, ⟨ruleSetChooseTries, 100, 0⟩, take,
        ⟨ruleChooseIndep, 0, 0⟩, Map.emitStep] ∧ take.operation = ruleTake ∧
      take.argument1 = root := by
  rw [Map.certifiedRoot, if_neg type] at h
  split at h
  next leafTries tries take choose emit steps =>
    split at h
    next checked =>
      obtain ⟨rfl, rfl, taken, rfl, rfl⟩ := checked
      exact ⟨take, steps, taken, Option.some.inj h⟩
    · cases h
  · cases h

theorem takeBucket_of_certifiedRoot (h : m.certifiedRoot rule = some root) :
    rule.takeBucket = some root := by
  by_cases type : rule.ruleType = ruleTypeReplicated
  · obtain ⟨take, choose, steps, taken, rfl, _⟩ := certifiedRoot_replicated type h
    simp [Rule.takeBucket, steps, taken]
  · obtain ⟨take, steps, taken, rfl⟩ := certifiedRoot_erasure type h
    simp [Rule.takeBucket, steps, taken, ruleSetChooseleafTries, ruleSetChooseTries, ruleTake]

namespace Placement

variable {p : Placement} {fuel n recurseTries : Nat} {seed : UInt32} {root : Int}
  {bucket : Bucket} {step : RuleStep} {work : Work}

/-! ### The steps of a rule -/

/-- The buffers at the start of a rule. -/
def empty (n : Nat) : List Int := List.replicate n itemNone

theorem taken_working {n : Nat} (positive : 0 < n) (root : Int) :
    ((empty n).set 0 root).take 1 = [root] := by
  cases n with
  | zero => exact absurd positive (Nat.lt_irrefl 0)
  | succ n => rfl

theorem ruleStep_take (operation : step.operation = ruleTake)
    (held : p.crush.buckets[step.argument1]? = some bucket) (negative : step.argument1 < 0)
    (room : 0 < work.working.length) :
    ruleStep p fuel seed n recurseTries work step =
      .ok { work with working := work.working.set 0 step.argument1, workingSize := 1 } := by
  have valid : p.validTake step.argument1 = true := by
    rw [validTake, if_neg (by omega)]
    exact Table.mem_iff.mpr ⟨bucket, held⟩
  simp only [ruleStep, operation, ruleTake, ruleSetChooseTries, ruleSetChooseleafTries, valid]
  exact bind_eq_ok.mpr ⟨_, guarded_eq_ok.mpr ⟨room, rfl⟩, rfl⟩

theorem ruleStep_setChooseleafTries (work : Work) :
    ruleStep p fuel seed n recurseTries work ⟨ruleSetChooseleafTries, 5, 0⟩ =
      .ok { work with chooseleafTries := 5 } := rfl

theorem ruleStep_setChooseTries (work : Work) :
    ruleStep p fuel seed n recurseTries work ⟨ruleSetChooseTries, 100, 0⟩ =
      .ok { work with chooseTries := 100 } := rfl

theorem ruleStep_emit (work : Work) :
    ruleStep p fuel seed n recurseTries work Map.emitStep = (do
      let emitted ← front work.working (min (n - work.result.length) work.workingSize)
      return { work with result := work.result ++ emitted, workingSize := 0 }) := rfl

/-- A certified step asks for as many items as the result has places. -/
theorem replicaNumber_zero (zero : step.argument1 = 0) (few : n ≤ maxCertifiedReplicas) :
    replicaNumber step n = .ok (n : Int) := by
  unfold maxCertifiedReplicas at few
  rw [replicaNumber, if_neg (by omega), if_neg (by omega), zero, Int.zero_add]

/-- A choose step with one bucket in the working set chooses below that bucket. -/
theorem chooseStep_single (taken : work.working.take work.workingSize = [root]) :
    chooseStep p fuel seed n recurseTries step work = (do
      let (work, found) ← chooseItem p fuel seed n recurseTries step (work, 0) root
      let output ← chosenItems step work found
      return { work with working := output, output := work.working, workingSize := found }) := by
  have size : work.workingSize ≠ 0 := by
    intro zero
    rw [zero] at taken
    cases taken
  rw [chooseStep, if_neg size, taken, List.foldlM_cons]
  simp only [List.foldlM_nil, bind_pure]

/-! ### Replicated rules -/

/-- The call that the choose step of a replicated rule makes. -/
def ruleFirstN (p : Placement) (bucket : Bucket) (seed : UInt32) (n : Nat) (choose : RuleStep) :
    FirstN where
  bucket := bucket
  seed := seed
  replicas := n
  targetType := choose.argument2
  tries := p.crush.chooseTotalTries + 1
  recurseTries := if p.crush.chooseleafDescendOnce ≠ 0 then 1 else p.crush.chooseTotalTries + 1
  localRetries := p.crush.chooseLocalTries
  localFallbackRetries := p.crush.chooseLocalFallbackTries
  recurseToLeaf := choose.operation == ruleChooseleafFirstN
  varyR := p.crush.chooseleafVaryR
  stable := p.crush.chooseleafStable != 0
  parentR := 0

/-- The slots of that call. -/
def emptySlots (n : Nat) : Slots :=
  { output := empty n, leaves := some (empty n), position := 0, count := n }

/-- The work after that call. -/
def Work.chosen (p : Placement) (n : Nat) (root : Int) (slots : Slots) : Work where
  working := (empty n).set 0 root
  output := slots.output
  leaves := slots.leaves.getD (empty n)
  workingSize := 1
  chooseTries := p.crush.chooseTotalTries + 1
  permutations := slots.permutations

theorem chooseItem_first_n (other : step.operation ≠ ruleChooseIndep) (zero : step.argument1 = 0)
    (positive : 0 < n) (few : n ≤ maxCertifiedReplicas)
    (held : p.crush.buckets[root]? = some bucket) :
    chooseItem p fuel seed n recurseTries step (work, 0) root = (do
      let slots ← p.chooseFirstN fuel
        { ruleFirstN p bucket seed n step with tries := work.chooseTries, recurseTries }
        { output := work.output, leaves := some work.leaves, position := 0, count := n
          permutations := work.permutations }
      return ({ work with
        output := slots.output, leaves := slots.leaves.getD work.leaves
        permutations := slots.permutations }, slots.position)) := by
  unfold chooseItem
  dsimp only
  rw [replicaNumber_zero zero few, ok_bind, if_neg (by omega), held]
  dsimp only
  rw [if_neg other]
  simp only [Nat.zero_add]
  rfl

/-- A certified replicated rule makes one call and emits what it chose. -/
theorem rule_replicated_eq (type : rule.ruleType = ruleTypeReplicated)
    (form : p.crush.certifiedRoot rule = some root) (held : p.crush.buckets[root]? = some bucket)
    (negative : root < 0) (positive : 0 < n) (few : n ≤ maxCertifiedReplicas) (fuel : Nat)
    (seed : UInt32) :
    ∃ choose ∈ rule.steps, choose.Certified ∧
      p.rule fuel rule seed n = (do
        let slots ← p.chooseFirstN fuel (ruleFirstN p bucket seed n choose) (emptySlots n)
        let items ← chosenItems choose (.chosen p n root slots) slots.position
        front items (min n slots.position)) := by
  obtain ⟨take, choose, steps, taken, rfl, certified⟩ := certifiedRoot_replicated type form
  refine ⟨choose, by simp [steps], certified, ?_⟩
  have other : choose.operation ≠ ruleChooseIndep := by
    rcases certified.operation with here | here <;> rw [here] <;> decide
  have choosing (work : Work) (r : Nat) : ruleStep p fuel seed n r work choose =
      chooseStep p fuel seed n r choose work := by
    rcases certified.operation with operation | operation <;>
      simp [ruleStep, operation, ruleChooseFirstN, ruleChooseleafFirstN, ruleTake,
        ruleSetChooseTries, ruleSetChooseleafTries]
  unfold Placement.rule
  dsimp only
  rw [steps, List.foldlM_cons, ruleStep_take taken held negative (by simpa using positive)]
  simp only [List.foldlM_cons, List.foldlM_nil, choosing, ok_bind]
  rw [chooseStep_single (taken_working positive _),
    chooseItem_first_n other certified.argument1 positive few held]
  simp only [bind_assoc, pure_bind, ruleStep_emit, List.length_nil, Nat.sub_zero, List.nil_append,
    bind_pure]
  rfl

/-- What a choose step puts in front of the working set. -/
theorem take_of_chosenItems {found : Nat} {items : List Int}
    (h : chosenItems step work found = .ok items) :
    items.take found =
      (if step.operation = ruleChooseleafFirstN then work.leaves else work.output).take found := by
  unfold chosenItems at h
  split at h
  next leaf =>
    obtain ⟨_, front_eq, h⟩ := bind_eq_ok.mp h
    obtain ⟨inside, rfl⟩ := guarded_eq_ok.mp front_eq
    obtain ⟨_, rfl⟩ := guarded_eq_ok.mp h
    rw [if_pos leaf]
    exact List.take_left' (by simp [inside])
  next other =>
    cases h
    rw [if_neg other]

variable {result : List Int}

/-- A certified replicated rule emits the devices of the choices made by its call. -/
theorem rule_replicated (type : rule.ruleType = ruleTypeReplicated)
    (form : p.crush.certifiedRoot rule = some root) (held : p.crush.buckets[root]? = some bucket)
    (negative : root < 0) (positive : 0 < n) (few : n ≤ maxCertifiedReplicas)
    (h : p.rule fuel rule seed n = .ok result) :
    ∃ choose ∈ rule.steps, choose.Certified ∧ ∃ slots : Slots,
      let call := ruleFirstN p bucket seed n choose
      Grows (Allowed p call root) [] (slots.picks call) ∧ slots.Fits call ∧ slots.position ≤ n ∧
        result = (slots.devices call).take slots.position := by
  obtain ⟨choose, mem, certified, runs⟩ :=
    rule_replicated_eq type form held negative positive few fuel seed
  rw [runs] at h
  obtain ⟨slots, called, h⟩ := bind_eq_ok.mp h
  obtain ⟨items, items_eq, h⟩ := bind_eq_ok.mp h
  obtain ⟨_, rfl⟩ := guarded_eq_ok.mp h
  have leaf : (ruleFirstN p bucket seed n choose).recurseToLeaf = true ↔
      choose.operation = ruleChooseleafFirstN := beq_iff_eq
  have fills := chooseFirstN_fills (leaf.trans certified.suited) (Map.under_self held)
    ⟨Nat.zero_le _, Nat.zero_le _, fun _ => rfl⟩ called
  have room := fills.room
  simp only [emptySlots] at room
  refine ⟨choose, mem, certified, slots, ?_, fills.fits, by omega, ?_⟩
  · have start : (emptySlots n).picks (ruleFirstN p bucket seed n choose) = [] := by
      simp [Slots.picks, emptySlots]
    exact start ▸ fills.grows
  rw [Nat.min_eq_right (by omega), take_of_chosenItems items_eq]
  by_cases recurse : choose.operation = ruleChooseleafFirstN
  · obtain ⟨values, held⟩ := Option.isSome_iff_exists.mp (fills.fits.leaves (leaf.mpr recurse))
    simp [Slots.devices, ruleFirstN, Work.chosen, recurse, held]
  · simp [Slots.devices, ruleFirstN, Work.chosen, recurse]

/-! ### Erasure rules -/

/-- The call that an erasure rule makes. -/
def ruleIndep (bucket : Bucket) (seed : UInt32) (n : Nat) : Indep where
  bucket := bucket
  seed := seed
  replicas := n
  targetType := 0
  start := 0
  stop := n
  tries := 100
  recurseTries := 5
  recurseToLeaf := false
  parentR := 0

/-- The slots of that call. -/
def emptyHoles (n : Nat) : Holes :=
  { output := empty n, leaves := some (empty n), left := n }

theorem chooseItem_indep (positive : 0 < n) (few : n ≤ maxCertifiedReplicas)
    (held : p.crush.buckets[root]? = some bucket) (tries : work.chooseTries = 100)
    (leafTries : work.chooseleafTries = 5) :
    chooseItem p fuel seed n recurseTries ⟨ruleChooseIndep, 0, 0⟩ (work, 0) root = (do
      let holes ← p.chooseIndep fuel (ruleIndep bucket seed n)
        { output := work.output, leaves := some work.leaves, left := n }
      return ({ work with output := holes.output, leaves := holes.leaves.getD work.leaves }, n)) := by
  unfold chooseItem
  dsimp only
  rw [replicaNumber_zero rfl few, ok_bind, if_neg (by omega), held]
  dsimp only
  rw [if_pos rfl, Int.toNat_natCast, Nat.sub_zero, Nat.min_self, Nat.zero_add, tries, leafTries]
  rfl

/-- A certified erasure rule makes one call and emits all slots. -/
theorem rule_erasure_eq (type : rule.ruleType ≠ ruleTypeReplicated)
    (form : p.crush.certifiedRoot rule = some root) (held : p.crush.buckets[root]? = some bucket)
    (negative : root < 0) (positive : 0 < n) (few : n ≤ maxCertifiedReplicas) :
    p.rule fuel rule seed n = (do
      let holes ← p.chooseIndep fuel (ruleIndep bucket seed n) (emptyHoles n)
      front holes.output n) := by
  obtain ⟨take, steps, taken, rfl⟩ := certifiedRoot_erasure type form
  have choosing (work : Work) (r : Nat) : ruleStep p fuel seed n r work ⟨ruleChooseIndep, 0, 0⟩ =
      chooseStep p fuel seed n r ⟨ruleChooseIndep, 0, 0⟩ work := rfl
  unfold Placement.rule
  dsimp only
  rw [steps]
  simp only [List.foldlM_cons, List.foldlM_nil, ruleStep_setChooseleafTries,
    ruleStep_setChooseTries, ok_bind]
  rw [ruleStep_take taken held negative (by simpa using positive)]
  simp only [ok_bind, choosing]
  rw [chooseStep_single (taken_working positive _), chooseItem_indep positive few held rfl rfl]
  simp only [bind_assoc, pure_bind, ruleStep_emit, List.length_nil, Nat.sub_zero, List.nil_append,
    bind_pure]
  simp only [chosenItems, ruleChooseIndep, ruleChooseleafFirstN]
  simp [ok_bind, emptyHoles, empty]

theorem rule_erasure (type : rule.ruleType ≠ ruleTypeReplicated)
    (form : p.crush.certifiedRoot rule = some root) (held : p.crush.buckets[root]? = some bucket)
    (negative : root < 0) (positive : 0 < n) (few : n ≤ maxCertifiedReplicas)
    (h : p.rule fuel rule seed n = .ok result) : Sound p seed root result ∧ result.length = n := by
  rw [rule_erasure_eq type form held negative positive few] at h
  obtain ⟨holes, called, h⟩ := bind_eq_ok.mp h
  obtain ⟨_, rfl⟩ := guarded_eq_ok.mp h
  have filling := chooseIndep_filling ⟨rfl, rfl, rfl⟩ (Map.under_self held)
    ⟨sound_replicate p seed root n, by simp [empty, emptyHoles, ruleIndep]⟩ called
  have length : holes.output.length = n := filling.length
  rw [← length, List.take_length]
  exact ⟨filling.sound, rfl⟩

end Placement

/-! ## Results of `place` -/

namespace Map

/-- A device that can be chosen for a rule: one of the map's devices, below the bucket the rule
takes, and not out. -/
structure Eligible (m : Map) (weights : List Nat) (seed : UInt32) (rule : Rule) (d : Int) :
    Prop where
  nonneg : 0 ≤ d
  inRange : d < m.maxDevices
  below : ∃ root, rule.takeBucket = some root ∧ m.Reaches root d
  notOut : Placement.isOut ⟨m, weights⟩ d seed = false

variable {m : Map} {fuel ruleId replicas : Nat} {seed : UInt32} {weights : List Nat}
  {result : List Int} {rule : Rule}

theorem Eligible.of_device {d : Int} (root_eq : rule.takeBucket = some root)
    (device : Placement.Device ⟨m, weights⟩ seed d) (below : m.Reaches root d) :
    m.Eligible weights seed rule d :=
  ⟨device.nonneg, device.inRange, ⟨root, root_eq, below⟩, device.notOut⟩

/-- What has been checked when a rule runs. -/
theorem placeValidated_eq_ok (h : m.placeValidated fuel ruleId seed replicas weights = .ok result)
    (found : m.rules[ruleId]? = some rule) :
    0 < replicas ∧ replicas ≤ maxCertifiedReplicas ∧ (∃ root bucket, m.certifiedRoot rule = some root ∧
      m.buckets[root]? = some bucket) ∧
      Placement.rule ⟨m, weights⟩ fuel rule seed replicas = .ok result := by
  unfold placeValidated at h
  split at h
  · cases h
  rename_i counted
  rw [found] at h
  dsimp only at h
  split at h
  · cases h
  obtain ⟨_, valid, running⟩ := bind_eq_ok.mp h
  refine ⟨by omega, by omega, ?_, running⟩
  unfold validateCertifiedRule at valid
  split at valid
  · cases valid
  rename_i root form
  split at valid
  next checked =>
    have held := Std.ExtTreeMap.mem_iff_isSome_getElem?.mp checked.1
    obtain ⟨bucket, held⟩ := Option.isSome_iff_exists.mp held
    exact ⟨root, bucket, form, held⟩
  · cases valid

theorem place_eq_ok (h : m.place fuel ruleId seed replicas weights = .ok result) :
    m.placeValidated fuel ruleId seed replicas weights = .ok result := by
  obtain ⟨_, _, h⟩ := bind_eq_ok.mp h
  exact h

theorem placeValidated_rule (h : m.placeValidated fuel ruleId seed replicas weights = .ok result) :
    ∃ rule, m.rules[ruleId]? = some rule ∧
      (rule.ruleType = ruleTypeReplicated ∨ rule.ruleType = ruleTypeErasure) := by
  unfold placeValidated at h
  split at h
  · cases h
  split at h
  · cases h
  next rule found =>
    split at h
    · cases h
    next known => exact ⟨rule, found, by tauto⟩

theorem Wf.root_neg {bucket : Bucket} (wf : m.Wf) (held : m.buckets[root]? = some bucket) :
    root < 0 :=
  (wf.regular root bucket held).1

/-- Choices made one after the other, each of them new in both components. -/
structure Choices (p : Placement) (call : Placement.FirstN) (top : Int)
    (picks : List (Int × Int)) : Prop where
  items : (picks.map Prod.fst).Nodup
  devices : (picks.map Prod.snd).Nodup
  below : ∀ pick ∈ picks, p.crush.Reaches top pick.1
  type : ∀ pick ∈ picks, p.itemType pick.1 = some call.targetType
  device : ∀ pick ∈ picks, p.Device call.seed pick.2
  leaf : ∀ pick ∈ picks,
    if call.recurseToLeaf then p.crush.Reaches pick.1 pick.2 else pick.2 = pick.1

theorem choices_of_grows {p : Placement} {call : Placement.FirstN} {top : Int}
    {picks : List (Int × Int)} (h : Grows (Placement.Allowed p call top) [] picks) :
    Choices p call top picks := by
  refine h.invariant (Choices p call top) ?_
    ⟨List.nodup_nil, List.nodup_nil, nofun, nofun, nofun, nofun⟩
  intro picks pick known allowed
  have each {P : Int × Int → Prop} (old : ∀ pick ∈ picks, P pick) (new : P pick) :
      ∀ other ∈ picks ++ [pick], P other := by
    intro other mem
    rcases List.mem_append.mp mem with before | last
    · exact old other before
    · exact List.mem_singleton.mp last ▸ new
  refine ⟨?_, ?_, each known.below allowed.below, each known.type allowed.type,
    each known.device allowed.device, each known.leaf allowed.leaf⟩
  · rw [List.map_append, List.map_singleton, ← List.concat_eq_append]
    exact known.items.concat allowed.newItem
  · rw [List.map_append, List.map_singleton, ← List.concat_eq_append]
    exact known.devices.concat allowed.newDevice

/-- The choices behind the result of a replicated rule. -/
theorem placeValidated_choices (wf : m.Wf) (found : m.rules[ruleId]? = some rule)
    (type : rule.ruleType = ruleTypeReplicated)
    (h : m.placeValidated fuel ruleId seed replicas weights = .ok result) :
    ∃ root choose call picks, rule.takeBucket = some root ∧ choose ∈ rule.steps ∧
      choose.Certified ∧ call.seed = seed ∧ call.targetType = choose.argument2 ∧
      (call.recurseToLeaf = true ↔ choose.operation = ruleChooseleafFirstN) ∧
      Choices ⟨m, weights⟩ call root picks ∧ result = picks.map Prod.snd ∧
      picks.length ≤ replicas := by
  obtain ⟨positive, few, ⟨root, bucket, form, held⟩, running⟩ := placeValidated_eq_ok h found
  obtain ⟨choose, step, certified, slots, grows, fits, room, rfl⟩ :=
    Placement.rule_replicated type form held (wf.root_neg held) positive few running
  refine ⟨root, choose, _, slots.picks _, takeBucket_of_certifiedRoot form, step, certified, rfl, rfl,
    beq_iff_eq, choices_of_grows grows, fits.picks_devices.symm, ?_⟩
  have length := congrArg List.length fits.picks_devices
  rw [List.length_map, List.length_take] at length
  omega

theorem placeValidated_replicated (wf : m.Wf) (found : m.rules[ruleId]? = some rule)
    (type : rule.ruleType = ruleTypeReplicated)
    (h : m.placeValidated fuel ruleId seed replicas weights = .ok result) :
    result.length ≤ replicas ∧ result.Nodup ∧ ∀ d ∈ result, m.Eligible weights seed rule d := by
  obtain ⟨root, choose, call, picks, root_eq, _, certified, rfl, target, leaf, choices, rfl, length⟩ :=
    placeValidated_choices wf found type h
  refine ⟨by simpa using length, choices.devices, ?_⟩
  intro d mem
  obtain ⟨pick, chosen, rfl⟩ := List.mem_map.mp mem
  refine .of_device root_eq (choices.device pick chosen) ?_
  have below := choices.below pick chosen
  have stands := choices.leaf pick chosen
  split at stands
  · exact below.trans stands
  · exact stands ▸ below

theorem placeValidated_erasure (wf : m.Wf) (found : m.rules[ruleId]? = some rule)
    (type : rule.ruleType = ruleTypeErasure)
    (h : m.placeValidated fuel ruleId seed replicas weights = .ok result) :
    result.length = replicas ∧ NoRepeat itemNone result ∧
      ∀ d ∈ result, d = itemNone ∨ m.Eligible weights seed rule d := by
  obtain ⟨positive, few, ⟨root, bucket, form, held⟩, running⟩ := placeValidated_eq_ok h found
  obtain ⟨sound, length⟩ := Placement.rule_erasure (by rw [type]; decide) form held
    (wf.root_neg held) positive few running
  refine ⟨length, sound.once, fun d mem => (sound.devices d mem).imp_right ?_⟩
  rintro ⟨device, below⟩
  exact .of_device (takeBucket_of_certifiedRoot form) device below

/-- Whatever the kind of the rule, no device is in two places. -/
theorem placeValidated_once (wf : m.Wf)
    (h : m.placeValidated fuel ruleId seed replicas weights = .ok result) :
    NoRepeat itemNone result := by
  obtain ⟨rule, found, replicated | erasure⟩ := placeValidated_rule h
  · exact .of_nodup (placeValidated_replicated wf found replicated h).2.1
  · exact (placeValidated_erasure wf found erasure h).2.1

/-! ### A map with two hosts -/

/-- Two hosts with two devices each below one root. -/
def sampleBuckets : List Bucket :=
  [⟨-1, 2, 0x40000, [-2, -3], [0x20000, 0x20000]⟩, ⟨-2, 1, 0x20000, [0, 1], [0x10000, 0x10000]⟩,
    ⟨-3, 1, 0x20000, [2, 3], [0x10000, 0x10000]⟩]

/-- A rule that chooses a device on each of a number of hosts. -/
def sampleReplicated : Rule :=
  ⟨ruleTypeReplicated, 1, 10, [⟨ruleTake, -1, 0⟩, ⟨ruleChooseleafFirstN, 0, 1⟩, emitStep]⟩

/-- A rule with a slot for each replica. -/
def sampleErasure : Rule :=
  ⟨ruleTypeErasure, 1, 10, [⟨ruleSetChooseleafTries, 5, 0⟩, ⟨ruleSetChooseTries, 100, 0⟩,
    ⟨ruleTake, -1, 0⟩, ⟨ruleChooseIndep, 0, 0⟩, emitStep]⟩

def sampleMap : Map :=
  { maxDevices := 4, buckets := .ofList (sampleBuckets.map fun bucket => (bucket.id, bucket))
    rules := .ofList [(0, sampleReplicated), (1, sampleErasure)]
    chooseLocalTries := 0, chooseLocalFallbackTries := 0, chooseTotalTries := 50
    chooseleafDescendOnce := 1, chooseleafVaryR := 1, strawCalcVersion := 1
    allowedBucketAlgorithms := 54, chooseleafStable := 1 }

def encodeSampleBucket (encoder : Encoder) (bucket : Bucket) : Encoder :=
  let encoder := ((encoder.u32 bucketStraw2).i32 bucket.id).u16 bucket.bucketType
  let encoder := ((encoder.u8 bucketStraw2).u8 hashRjenkins1).u32 bucket.weight
  let encoder := encoder.u32 bucket.items.length
  bucket.itemWeights.foldl Encoder.u32 (bucket.items.foldl Encoder.i32 encoder)

def encodeSampleRule (encoder : Encoder) (id : Nat) (rule : Rule) : Encoder :=
  let encoder := ((encoder.u32 1).u32 rule.steps.length).u8 id
  let encoder := ((encoder.u8 rule.ruleType).u8 rule.minSize).u8 rule.maxSize
  rule.steps.foldl
    (fun encoder step => ((encoder.u32 step.operation).i32 step.argument1).i32 step.argument2)
    encoder

/-- The encoding of the map. -/
def sampleBytes : List UInt8 :=
  let encoder := (((Encoder.new 4096).u32 magic).i32 3).u32 2
  let encoder := sampleBuckets.foldl encodeSampleBucket (encoder.i32 4)
  let encoder := encodeSampleRule (encodeSampleRule encoder 0 sampleReplicated) 1 sampleErasure
  let encoder := ((encoder.u32 0).u32 0).u32 0
  let encoder := (((encoder.u32 0).u32 0).u32 50).u32 1
  let encoder := (((encoder.u8 1).u8 1).u32 54).u8 1
  let encoder := (((encoder.u32 0).u32 0).u32 0).u32 0
  ((encoder.u32 100).u32 100).bytes

def sampleLimits : DecodeLimits := ⟨4096, 16, 16, 64, 64⟩

theorem decode_sampleBytes : Map.decode sampleBytes sampleLimits = .ok sampleMap := by
  decide +kernel

/-- Devices 0, 2 and 3 are in. -/
def sampleWeights : List Nat := [0x10000, 0, 0x10000, 0x10000]

/-! ### The results -/

/-- A replicated rule emits at most as many devices as asked for, and no device twice.  An
erasure rule fills every slot with a hole or a device, and no device is in two slots.  The
devices are the map's, below the bucket the rule takes, and not out. -/
theorem place_emits_eligible {data : List UInt8} {limits : DecodeLimits}
    (decoded : Map.decode data limits = .ok m)
    (placed : m.place fuel ruleId seed replicas weights = .ok result)
    (found : m.rules[ruleId]? = some rule) :
    (rule.ruleType = ruleTypeReplicated →
      result.length ≤ replicas ∧ result.Nodup ∧ ∀ d ∈ result, m.Eligible weights seed rule d) ∧
    (rule.ruleType = ruleTypeErasure →
      result.length = replicas ∧ NoRepeat itemNone result ∧
        ∀ d ∈ result, d = itemNone ∨ m.Eligible weights seed rule d) :=
  ⟨fun type => placeValidated_replicated (decode_wf decoded) found type (place_eq_ok placed),
    fun type => placeValidated_erasure (decode_wf decoded) found type (place_eq_ok placed)⟩

set_option maxRecDepth 1000

theorem place_emits_eligible_erasure :
    sampleMap.place 8 1 7 3 sampleWeights = .ok [2, 3, 0] ∧ NoRepeat itemNone [2, 3, 0] ∧
      ∀ d ∈ [2, 3, 0], d = itemNone ∨ sampleMap.Eligible sampleWeights 7 sampleErasure d := by
  have placed : sampleMap.place 8 1 7 3 sampleWeights = .ok [2, 3, 0] := by decide
  have found : sampleMap.rules[1]? = some sampleErasure := by decide
  exact ⟨placed, ((place_emits_eligible decode_sampleBytes placed found).2 rfl).2⟩

/-- With a rule that chooses leaves below buckets of a type, the devices stand for different
buckets of that type: no two of them share a failure domain. -/
theorem place_separates_domains {data : List UInt8} {limits : DecodeLimits} {take : RuleStep}
    {domainType : Int} (decoded : Map.decode data limits = .ok m)
    (found : m.rules[ruleId]? = some rule) (type : rule.ruleType = ruleTypeReplicated)
    (taken : take.operation = ruleTake)
    (steps : rule.steps = [take, ⟨ruleChooseleafFirstN, 0, domainType⟩, emitStep])
    (placed : m.place fuel ruleId seed replicas weights = .ok result) :
    ∃ domains : List Int, domains.Nodup ∧ List.Forall₂ m.Reaches domains result ∧
      ∀ id ∈ domains, m.Reaches take.argument1 id ∧
        ∃ bucket, m.buckets[id]? = some bucket ∧ bucket.bucketType = domainType := by
  obtain ⟨root, choose, call, picks, root_eq, step, certified, _, target, leaf, choices, rfl, _⟩ :=
    placeValidated_choices (decode_wf decoded) found type (place_eq_ok placed)
  have root_eq : root = take.argument1 := by
    rw [Rule.takeBucket, steps] at root_eq
    simpa [taken] using root_eq.symm
  subst root_eq
  -- of the three steps only the second one chooses
  have choose_eq : choose = ⟨ruleChooseleafFirstN, 0, domainType⟩ := by
    rw [steps] at step
    simp only [List.mem_cons, List.not_mem_nil, or_false] at step
    rcases step with rfl | here | rfl
    · rcases certified.operation with wrong | wrong <;> rw [taken] at wrong <;> cases wrong
    · exact here
    · rcases certified.operation with wrong | wrong <;> cases wrong
  subst choose_eq
  have recurse : call.recurseToLeaf = true := leaf.mpr rfl
  have positive : call.targetType ≠ 0 := by
    rw [target]
    exact certified.suited.mp rfl
  refine ⟨picks.map Prod.fst, choices.items, ?_, ?_⟩
  · rw [List.forall₂_map_left_iff, List.forall₂_map_right_iff, List.forall₂_same]
    intro pick chosen
    simpa [recurse] using choices.leaf pick chosen
  intro id mem
  obtain ⟨pick, chosen, rfl⟩ := List.mem_map.mp mem
  have kind := choices.type pick chosen
  rw [Placement.itemType, if_pos (Placement.neg_of_itemType kind positive), target] at kind
  obtain ⟨bucket, held, type_eq⟩ := Option.map_eq_some_iff.mp kind
  exact ⟨choices.below pick chosen, bucket, held, type_eq⟩

theorem place_separates_domains_hosts :
    sampleMap.place 8 0 7 2 sampleWeights = .ok [2, 0] ∧
      ∃ domains : List Int, domains.Nodup ∧ List.Forall₂ sampleMap.Reaches domains [2, 0] ∧
        ∀ id ∈ domains, sampleMap.Reaches (-1) id ∧
          ∃ bucket, sampleMap.buckets[id]? = some bucket ∧ bucket.bucketType = (1 : Int) := by
  have placed : sampleMap.place 8 0 7 2 sampleWeights = .ok [2, 0] := by decide
  have found : sampleMap.rules[0]? = some sampleReplicated := by decide
  exact ⟨placed, place_separates_domains decode_sampleBytes found rfl rfl rfl placed⟩

end Map

end RadosRs.Crush
