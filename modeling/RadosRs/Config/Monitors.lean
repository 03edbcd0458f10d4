import RadosRs.Mon.Seeds

/-!
# Monitors in the configuration

The option `mon_host` has the seeds of the monitors, with commas, semicolons or
white space between them.  `parseMonitorSeeds` takes such a value apart, and
`monHost` puts one together.  Brackets may stand around the whole value and around
each seed, and they are taken off.  So the address of an IPv6 endpoint, which is
in brackets itself, loses the first of them.  `monitor_seeds_read_back` says which
lists of seeds survive.
-/

namespace RadosRs.Config

open Fallible Mon Text

inductive ConfigError where
  | invalid (operation : String)
  deriving DecidableEq, Repr

def maxMonitors : Nat := 64
def maxMonitorBytes : Nat := 1024

def isSeparator (c : Char) : Bool := c == ',' || c == ';' || isWhitespace c

def isBracket (c : Char) : Bool := c == '[' || c == ']'

/-- The value without the brackets around it, if there are two. -/
def withoutBrackets (value : List Char) : List Char :=
  ((afterLead ['['] value).bind (beforeLast ']')).getD value

def parseMonitorSeeds (value : List Char) : Except ConfigError (List (List Char)) :=
  if value.any fun c => c == '\x00' || c == '\r' || c == '\n' then .error (.invalid "Config::parse")
  else
    let monitors := (((withoutBrackets (trim value)).splitOnP isSeparator).map
      (trimMatches isBracket)).filter fun monitor =>
        !monitor.isEmpty && !"v1:".toList.isPrefixOf monitor
    if monitors.isEmpty || monitors.length > maxMonitors
        || monitors.any fun monitor => utf8Length monitor > maxMonitorBytes then
      .error (.invalid "Config::parse")
    else .ok monitors

/-- The value of the option that `Config::option` gives for these monitors. -/
def monHost (monitors : List (List Char)) : List Char := [','].intercalate monitors

/-! ## Seeds that are kept -/

/-- A list of seeds that the resolver takes, and that could be a value of the option. -/
structure Configurable (seeds : List (List Char)) : Prop where
  nonempty : seeds ≠ []
  few : seeds.length ≤ maxMonitors
  accepted : ∀ seed ∈ seeds, (parseSeed seed).isOk = true
  short : ∀ seed ∈ seeds, utf8Length seed ≤ maxMonitorBytes
  modern : ∀ seed ∈ seeds, "v1:".toList.isPrefixOf seed = false
  whole : ∀ seed ∈ seeds, ∀ c ∈ seed, isSeparator c = false

/-- The seed has no bracket at its ends, and no character that the option refuses. -/
structure Plain (seed : List Char) : Prop where
  bare : Bare isBracket seed
  clean : '\x00' ∉ seed

instance (seed : List Char) : Decidable (Plain seed) :=
  decidable_of_iff (Bare isBracket seed ∧ '\x00' ∉ seed) ⟨fun h => ⟨h.1, h.2⟩, fun h => ⟨h.1, h.2⟩⟩

theorem parseSeed_nil : (parseSeed []).isOk = false := by decide

variable {seeds : List (List Char)} {seed : List Char}

theorem Configurable.ne_nil (h : Configurable seeds) (mem : seed ∈ seeds) : seed ≠ [] := by
  rintro rfl
  have accepted := h.accepted [] mem
  rw [parseSeed_nil] at accepted
  cases accepted

variable {value : List Char}

/-- The brackets around a value are only looked for at its ends. -/
theorem withoutBrackets_eq_self (h : Bare isBracket value) : withoutBrackets value = value := by
  have other : ['['].isPrefixOf value = false := by
    cases value with
    | nil => rfl
    | cons c value =>
      have first := h.1 c rfl
      simp only [isBracket, Bool.or_eq_false_iff, beq_eq_false_iff_ne] at first
      simp [List.isPrefixOf, first.1.symm]
  rw [withoutBrackets, afterLead, other]
  rfl

/-- What is read from a value has no bracket at its ends. -/
theorem bare_of_mem_parseMonitorSeeds (h : parseMonitorSeeds value = .ok seeds)
    (mem : seed ∈ seeds) : Bare isBracket seed := by
  unfold parseMonitorSeeds at h
  split at h
  · cases h
  dsimp only at h
  split at h
  · cases h
  cases h
  obtain ⟨piece, -, rfl⟩ := List.mem_map.mp (List.mem_filter.mp mem).1
  exact bare_trimMatches isBracket piece

theorem not_mem_of_parseMonitorSeeds (h : parseMonitorSeeds value = .ok seeds) :
    '\x00' ∉ value := by
  unfold parseMonitorSeeds at h
  split at h
  · cases h
  rename_i free
  intro mem
  exact free (List.any_eq_true.mpr ⟨_, mem, rfl⟩)

theorem Configurable.parseMonitorSeeds_monHost (h : Configurable seeds)
    (plain : ∀ seed ∈ seeds, Plain seed) : parseMonitorSeeds (monHost seeds) = .ok seeds := by
  have nonempty (seed : List Char) (mem : seed ∈ seeds) : seed ≠ [] := h.ne_nil mem
  have trimmed : trim (monHost seeds) = monHost seeds := by
    have blank (seed : List Char) (mem : seed ∈ seeds) (c : Char) (here : c ∈ seed) :
        isWhitespace c = false := by
      have free := h.whole seed mem c here
      simp only [isSeparator, Bool.or_eq_false_iff] at free
      exact free.2
    refine trimMatches_eq_self (bare_intercalate nonempty fun seed mem => ⟨?_, ?_⟩)
    · exact fun c first => blank seed mem c (List.mem_of_mem_head? first)
    · exact fun c last => blank seed mem c (List.mem_of_getLast? last)
  have unwrapped : withoutBrackets (monHost seeds) = monHost seeds :=
    withoutBrackets_eq_self (bare_intercalate nonempty fun seed mem => (plain seed mem).bare)
  have pieces : (monHost seeds).splitOnP isSeparator = seeds :=
    splitOnP_intercalate rfl h.nonempty h.whole
  have kept : seeds.map (trimMatches isBracket) = seeds :=
    (List.map_congr_left fun seed mem => trimMatches_eq_self (plain seed mem).bare).trans
      (List.map_id seeds)
  have all : seeds.filter (fun monitor => !monitor.isEmpty && !"v1:".toList.isPrefixOf monitor)
      = seeds := by
    refine List.filter_eq_self.mpr fun seed mem => ?_
    rw [h.modern seed mem, List.isEmpty_eq_false_iff.mpr (nonempty seed mem)]
    rfl
  have short : seeds.any (fun monitor => utf8Length monitor > maxMonitorBytes) = false := by
    refine List.any_eq_false.mpr fun seed mem => ?_
    rw [decide_eq_true_eq]
    exact not_lt.mpr (h.short seed mem)
  -- a line break is a separator, so that the option refuses only the character zero
  have clean : (monHost seeds).any (fun c => c == '\x00' || c == '\r' || c == '\n') = false := by
    refine List.any_eq_false.mpr fun c mem refused => ?_
    obtain rfl | ⟨seed, inside, here⟩ := mem_intercalate mem
    · cases refused
    have free := h.whole seed inside c here
    simp only [Bool.or_eq_true, beq_iff_eq] at refused
    obtain (rfl | rfl) | rfl := refused
    · exact (plain seed inside).clean here
    · cases free
    · cases free
  unfold parseMonitorSeeds
  rw [trimmed, unwrapped, pieces, kept, all, clean]
  dsimp only
  rw [short, List.isEmpty_eq_false_iff.mpr h.nonempty]
  simp [h.few]

/-- A list of seeds that the resolver takes is read back from the option if and only if none of
them has a bracket at one of its ends, or the character zero in it. -/
theorem monitor_seeds_read_back {seeds : List (List Char)} (h : Configurable seeds) :
    parseMonitorSeeds (monHost seeds) = .ok seeds ↔ ∀ seed ∈ seeds, Plain seed := by
  refine ⟨fun read seed mem => ⟨bare_of_mem_parseMonitorSeeds read mem, fun zero => ?_⟩,
    h.parseMonitorSeeds_monHost⟩
  exact not_mem_of_parseMonitorSeeds read (mem_intercalate_of_mem mem zero)

theorem whole_of_all (h : (seeds.all fun seed => seed.all fun c => !isSeparator c) = true) :
    ∀ seed ∈ seeds, ∀ c ∈ seed, isSeparator c = false := by
  simpa using h

/-- An address, a host with a port, and an IPv6 endpoint behind a prefix. -/
theorem monitor_seeds_read_back_sample :
    let seeds := ["192.0.2.1".toList, "mon.example:5500".toList, "v2:[2001:db8::1]:3300/7".toList]
    Configurable seeds ∧ (∀ seed ∈ seeds, Plain seed)
      ∧ parseMonitorSeeds (monHost seeds) = .ok seeds := by
  intro seeds
  have configurable : Configurable seeds :=
    ⟨by decide, by decide, by decide, by decide, by decide,
      whole_of_all (by decide)⟩
  have plain : ∀ seed ∈ seeds, Plain seed := by decide
  exact ⟨configurable, plain, (monitor_seeds_read_back configurable).mpr plain⟩

/-- An IPv6 endpoint in brackets is a seed that the resolver takes.  It loses its first bracket,
and what is left is refused. -/
theorem not_monitor_seeds_read_back :
    let seeds := ["[2001:db8::1]:4400".toList]
    Configurable seeds
      ∧ parseMonitorSeeds (monHost seeds) = .ok ["2001:db8::1]:4400".toList]
      ∧ (parseSeed "2001:db8::1]:4400".toList).isOk = false := by
  refine ⟨⟨?_, ?_, ?_, ?_, ?_, whole_of_all ?_⟩, ?_, ?_⟩
  all_goals decide

end RadosRs.Config
