import SingleWire.Proofs.Search.Targets

/-!
A search for one family among codes that may be corrupt. Its calls go through the family and then
through the corrupt codes right behind it, each of which fails a call, before one finds nothing. So a
corrupt stranger is noticed exactly if no valid code stands between the family and it.
-/

namespace SingleWire.Search

variable {ε σ : Type} {codes kept listed : List Rom} {last entry code path : Rom}
  {steer : Nat → Bool} {state : State} {family : UInt8} {wire : Wire} {kind : Kind}
  {line cleared : SimulatedLine} {master other : Master}

def strangers (codes : List Rom) (last : Rom) : List Rom :=
  (ahead codes (some last)).filter fun code => code.family != last.family

/-- The corrupt ones of them before the first valid one. -/
def strays (codes : List Rom) (last : Rom) : List Rom :=
  (strangers codes last).takeWhile fun code => !code.isValid

/-- The codes that the calls of a search for one family are made for behind one found: the first
valid code of another family ends it. -/
def following (codes : List Rom) (last : Rom) (family : UInt8) : List Rom :=
  (ahead codes (some last)).takeWhile fun code => code.family == family || !code.isValid

theorem mem_strangers :
    code ∈ strangers codes last ↔
      (code ∈ codes ∧ last.order < code.order) ∧ code.family ≠ last.family := by
  rw [strangers, List.mem_filter, mem_ahead, bne_iff_ne]
  simp

theorem ahead_filter (keep : Rom → Bool) (latest : Option Rom) :
    ahead (codes.filter keep) latest = (ahead codes latest).filter keep := by
  apply Rom.eq_of_ascending (ahead_pairwise _ latest) ((ahead_pairwise codes latest).filter keep)
  intro code
  simp only [mem_ahead, List.mem_filter]
  tauto

theorem ahead_eq_family_append (codes : List Rom) (last : Rom) :
    ahead codes (some last) = familyAhead codes (some last) last.family ++ strangers codes last := by
  apply Rom.eq_of_ascending (ahead_pairwise codes (some last))
  · apply List.pairwise_append.mpr
    refine ⟨familyAhead_pairwise _ _ _, (ahead_pairwise codes (some last)).filter _, ?_⟩
    intro inside listed outside behind
    obtain ⟨_, same⟩ := mem_familyAhead.mp listed
    obtain ⟨⟨_, later⟩, differ⟩ := mem_strangers.mp behind
    rcases Nat.lt_trichotomy inside.order outside.order with before | equal | after
    · exact before
    · rw [← Rom.order_injective equal] at differ
      exact absurd same differ
    · exact absurd (Rom.family_eq_of_between later after same.symm) differ
  · intro code
    rw [List.mem_append, mem_familyAhead, mem_strangers, mem_ahead]
    by_cases inside : code.family = last.family <;> simp [inside]

theorem following_eq (codes : List Rom) (last : Rom) :
    following codes last last.family =
      familyAhead codes (some last) last.family ++ strays codes last := by
  have of_family : ∀ code ∈ familyAhead codes (some last) last.family,
      (code.family == last.family || !code.isValid) = true := by
    intro code listed
    rw [(mem_familyAhead.mp listed).2, beq_self_eq_true, Bool.true_or]
  rw [following, ahead_eq_family_append, List.takeWhile_append_of_pos of_family, strays, strangers,
    List.takeWhile_filter, List.takeWhile_filter]
  simp [bne]

theorem following_cleared (codes : List Rom) (last : Rom) :
    following (codes.filter fun code => code.family == last.family || code.isValid) last
      last.family = familyAhead codes (some last) last.family := by
  have family_kept : familyAhead (codes.filter fun code => code.family == last.family || code.isValid)
      (some last) last.family = familyAhead codes (some last) last.family := by
    rw [familyAhead, ahead_filter, List.filter_filter, familyAhead]
    apply List.filter_congr
    intro code _
    cases code.family == last.family <;> rfl
  have none_stray : strays (codes.filter fun code => code.family == last.family || code.isValid)
      last = [] := by
    apply List.eq_nil_iff_forall_not_mem.mpr
    intro code listed
    have corrupt : code.isValid = false := by
      simpa using List.all_eq_true.mp List.all_takeWhile code listed
    have stranger := mem_strangers.mp ((List.takeWhile_sublist _).subset listed)
    have kept := (List.mem_filter.mp stranger.1.1).2
    simp [corrupt, stranger.2] at kept
  rw [following_eq, family_kept, none_stray, List.append_nil]

theorem Led.of_subset (led : Led codes steer path 64) (fewer : kept ⊆ codes) (member : path ∈ kept) :
    Led kept steer path 64 where
  reached := ⟨path, member, fun _ _ => rfl⟩
  steered := by
    rintro index inside ⟨code, present, along, differ⟩
    exact led.steered index inside ⟨code, fewer present, along, differ⟩

theorem exists_led (someone : codes ≠ []) (steer : Nat → Bool) : ∃ path, Led codes steer path 64 := by
  have walked : ∀ count ≤ 64, ∃ path, Led codes steer path count := by
    intro count within
    induction count with
    | zero =>
        obtain ⟨code, member⟩ := List.exists_mem_of_ne_nil codes someone
        refine ⟨code, ⟨code, member, fun _ _ => rfl⟩, ?_⟩
        exact fun index inside => absurd inside (Nat.not_lt_zero index)
    | succ count ih =>
        obtain ⟨path, led⟩ := ih (by omega)
        exact ⟨_, led.step within⟩
  exact walked 64 (Nat.le_refl 64)

/-- Led along the seed of a family the first pass comes to its lowest code, unless another code
differs from that one in the last bit alone: of these two it takes the one with the one. -/
theorem Led.seeded_entry (led : Led codes (steering (Rom.seed family) 64) entry 64)
    (reached : entry.family = family) (member : code ∈ codes) (inside : code.family = family) :
    code = entry.setBit 63 false ∨ entry.order ≤ code.order := by
  rcases Rom.exists_difference code entry 64 with same | ⟨index, within, before, differ⟩
  · rw [Rom.eq_of_agrees same]
    exact .inr (Nat.le_refl _)
  · have shared : code.agrees entry 8 := Rom.family_eq_iff.mp (inside.trans reached.symm)
    have behind : 8 ≤ index := by
      by_contra early
      exact differ (shared index (by omega))
    have steered := led.steered index within ⟨code, member, before, differ⟩
    -- Behind the family bits a seed leads down at every fork, except at the last bit.
    by_cases last : index = 63
    · subst last
      left
      have one : entry.bit 63 = true := by
        rw [steered]
        rfl
      have zero : code.bit 63 = false := by simpa [one] using differ
      apply Rom.eq_of_agrees
      refine Rom.agrees_succ_iff.mpr ⟨before.trans (agrees_setBit entry (by decide) false), ?_⟩
      rw [bit_setBit_same entry (by decide), zero]
    · right
      have zero : entry.bit index = false := by
        rw [steered, steering_before (by omega), Rom.bit_seed_behind family behind]
      have one : code.bit index = true := by simpa [zero] using differ
      exact Nat.le_of_lt (Rom.order_lt_iff.mpr ⟨index, within, before.symm, zero, one⟩)

/-- The codes that a search for one family has still to make calls for. -/
inductive Roams (codes : List Rom) (state : State) : List Rom → Prop
  | entering {entry : Rom} (more : state.exhausted = false)
      (led : Led codes (steering state.rom state.discrepancy) entry 64)
      (inside : entry.family = state.family) :
      Roams codes state (entry :: following codes entry state.family)
  | behind {last : Rom} (stands : Stands codes { state with family := 0 } (some last)) :
      Roams codes state (following codes last state.family)
  | finished (exhausted : state.exhausted = true) : Roams codes state []

theorem outcomes_succ (listed : List Rom) (count : Nat) :
    outcomes (ε := ε) listed (count + 1) =
      listed.head?.elim (.ok none) verdict :: outcomes listed.tail count := by
  cases listed with
  | nil => rw [outcomes, List.head?_nil, Option.elim_none, List.tail_nil]
  | cons code rest => rw [outcomes, List.head?_cons, Option.elim_some, List.tail_cons]

theorem outcomes_append (first rest : List Rom) (count : Nat) :
    outcomes (ε := ε) (first ++ rest) (first.length + count) =
      first.map verdict ++ outcomes rest count := by
  induction first with
  | nil => rw [List.length_nil, Nat.zero_add, List.nil_append, List.map_nil, List.nil_append]
  | cons code first ih =>
      rw [List.length_cons, Nat.add_right_comm, List.cons_append, outcomes, ih, List.map_cons,
        List.cons_append]

theorem eval_pass_led (taking : state.kind.codes wire.devices = codes)
    (led : Led codes (steering state.rom state.discrepancy) code 64) :
    ∃ bus, eval (Wire.answer (ε := ε)) pass state wire = (.ok code, state.landed codes code, bus) ∧
      bus.natures = wire.natures := by
  subst taking
  obtain ⟨path, bus, passed, reached, natures, -⟩ :=
    @eval_pass ε state wire (List.ne_nil_of_mem led.mem)
  obtain rfl : path = code := Rom.eq_of_agrees (reached.unique led (Nat.le_refl 64))
  exact ⟨bus, passed, natures⟩

theorem outcomes_append_eq_iff (first rest : List Rom) :
    (∀ count, outcomes (ε := ε) (first ++ rest) count = outcomes first count) ↔ rest = [] := by
  constructor
  · intro same
    cases rest with
    | nil => rfl
    | cons code others =>
        have longer := outcomes_append (ε := ε) first (code :: others) 1
        have shorter := outcomes_append (ε := ε) first [] 1
        rw [List.append_nil, ← same, longer] at shorter
        have said := List.cons.inj (List.append_cancel_left shorter)
        rw [verdict] at said
        split at said
        · cases said.1
        · cases said.1
  · rintro rfl count
    rw [List.append_nil]

theorem strays_eq_nil_iff :
    strays codes last = [] ↔ ∀ code ∈ (strangers codes last).head?, code.isValid = true := by
  rw [strays]
  cases strangers codes last with
  | nil => simp
  | cons code rest => simp [List.takeWhile_cons]

section

variable (targeted : state.family ≠ 0) (families : ∀ code ∈ codes, code.family ≠ 0)
  (taking : state.kind.codes wire.devices = codes)
include families taking

theorem eval_next_listed (more : state.exhausted = false)
    (led : Led codes (steering state.rom state.discrepancy) code 64)
    (listed : (code.family == state.family || !code.isValid) = true) :
    ∃ bus, eval (Wire.answer (ε := ε)) next state wire =
        (verdict code, state.landed codes code, bus) ∧ bus.natures = wire.natures := by
  obtain ⟨bus, passed, natures⟩ := eval_pass_led (ε := ε) taking led
  refine ⟨bus, ?_, natures⟩
  have family : (state.landed codes code).family = state.family := rfl
  rw [eval_next_passed more passed, eval_judge_family (families code led.mem), family, verdict]
  cases valid : code.isValid with
  | false => rfl
  | true =>
      have inside : code.family = state.family := by simpa [valid] using listed
      have kept : ¬ (state.family ≠ 0 ∧ code.family ≠ state.family) :=
        fun outside => outside.2 inside
      rw [if_pos rfl, if_neg kept, if_pos rfl]

include targeted

theorem Roams.eval_next (roams : Roams codes state listed) :
    ∃ after bus, eval (Wire.answer (ε := ε)) next state wire =
        (listed.head?.elim (.ok none) verdict, after, bus) ∧
      Roams codes after listed.tail ∧ (listed = [] → after.exhausted = true) ∧
      Retains state after wire bus := by
  cases roams with
  | finished exhausted =>
      exact ⟨state, wire, eval_next_exhausted exhausted, .finished exhausted, fun _ => exhausted,
        rfl, rfl, rfl⟩
  | @entering entry more led inside =>
      obtain ⟨bus, passed, natures⟩ :=
        eval_next_listed (ε := ε) families taking more led (by simp [inside])
      rw [List.head?_cons, Option.elim_some, List.tail_cons]
      refine ⟨_, bus, passed, ?_, (absurd · (List.cons_ne_nil _ _)), rfl, rfl, natures⟩
      exact .behind (@Stands.landed codes entry { state with family := 0 } rfl led.mem)
  | @behind last stands =>
      cases first : ahead codes (some last) with
      | nil =>
          have exhausted : state.exhausted = true := stands.exhausted_iff.mpr first
          have none : following codes last state.family = [] := by rw [following, first]; rfl
          rw [none, List.head?_nil, Option.elim_none]
          exact ⟨state, wire, eval_next_exhausted exhausted, .finished exhausted, fun _ => exhausted,
            rfl, rfl, rfl⟩
      | cons code rest =>
          have more : state.exhausted = false := stands.more first
          obtain ⟨path, led⟩ := exists_led (List.ne_nil_of_mem (first_ahead first).1)
            (steering state.rom state.discrepancy)
          obtain rfl : path = code := stands.led led first
          by_cases goes_on : (path.family == state.family || !path.isValid) = true
          · obtain ⟨bus, passed, natures⟩ := eval_next_listed (ε := ε) families taking more led goes_on
            have left : following codes last state.family =
                path :: following codes path state.family := by
              rw [following, first, List.takeWhile_cons, if_pos goes_on, following, ahead_tail first]
            rw [left, List.head?_cons, Option.elim_some, List.tail_cons]
            refine ⟨_, bus, passed, ?_, (absurd · (List.cons_ne_nil _ _)), rfl, rfl, natures⟩
            exact .behind (@Stands.landed codes path { state with family := 0 } rfl led.mem)
          · have left : following codes last state.family = [] := by
              rw [following, first, List.takeWhile_cons, if_neg goes_on]
            have outside : path.family ≠ state.family ∧ path.isValid = true := by simpa using goes_on
            obtain ⟨bus, passed, natures⟩ := eval_pass_led (ε := ε) taking led
            have family : (state.landed codes path).family = state.family := rfl
            rw [left, List.head?_nil, Option.elim_none, eval_next_passed more passed,
              eval_judge_family (families path led.mem), if_pos outside.2, family,
              if_pos ⟨targeted, outside.1⟩]
            exact ⟨_, bus, rfl, .finished rfl, fun _ => rfl, rfl, rfl, natures⟩

theorem Roams.eval_nexts (roams : Roams codes state listed) (count : Nat) :
    ∃ after bus, eval (Wire.answer (ε := ε)) (nexts count) state wire =
        (.ok (outcomes listed count), after, bus) ∧
      (listed.length < count → after.exhausted = true) := by
  induction count generalizing state listed wire with
  | zero =>
      refine ⟨state, wire, ?_, fun less => absurd less (Nat.not_lt_zero _)⟩
      rw [nexts, eval_pure, outcomes]
  | succ count ih =>
      obtain ⟨after, bus, called, left, spent, retains⟩ :=
        roams.eval_next (ε := ε) targeted families taking
      have again : after.kind.codes bus.devices = codes := by
        rw [retains.kind, Wire.codes_of_natures retains.natures, taking]
      obtain ⟨last, final, rest, ended⟩ := ih (retains.family ▸ targeted) again left
      refine ⟨last, final, ?_, ?_⟩
      · simp only [nexts, eval_bind, eval_attempt, called, rest, eval_pure, outcomes_succ]
      · intro longer
        cases listed with
        | cons code others => exact ended (Nat.lt_of_succ_lt_succ longer)
        | nil =>
            cases count with
            | zero =>
                rw [nexts, eval_pure] at rest
                cases rest
                exact spent rfl
            | succ count => exact ended (Nat.succ_pos count)

end

theorem perform_nexts_targeted (drives : master.Drives line) (free : line.stuckLow = false)
    (targeted : family ≠ 0) (families : ∀ code ∈ kind.codes line.devices, code.family ≠ 0)
    (led : Led (kind.codes line.devices) (steering (Rom.seed family) 64) entry 64)
    (inside : entry.family = family) (count : Nat) :
    let listed := entry :: following (kind.codes line.devices) entry entry.family
    ∃ state after, perform (ε := ε) master (nexts count) (State.ofFamily kind family) line =
        (.ok (outcomes listed count), state, after) ∧
      (listed.length < count → state.exhausted = true) := by
  intro listed
  obtain ⟨after, performed, -⟩ :=
    perform_wire drives free (beginsWithReset_nexts (ε := ε) count) (State.ofFamily kind family)
  have roams : Roams (kind.codes line.devices) (State.ofFamily kind family) listed := by
    rw [show listed = entry :: following _ entry (State.ofFamily kind family).family by
      rw [← show entry.family = (State.ofFamily kind family).family from inside]]
    exact .entering rfl led inside
  obtain ⟨state, bus, called, ended⟩ :=
    roams.eval_nexts (ε := ε) targeted families (line.codes_wire kind) count
  refine ⟨state, after, ?_, ended⟩
  rw [performed, called]

theorem codes_cleared {keep : Rom → Bool}
    (same : cleared.natures = line.natures.filter fun device => keep device.rom) :
    kind.codes cleared.devices = (kind.codes line.devices).filter keep := by
  rw [← kind.codes_nature, ← kind.codes_nature line.devices]
  change kind.codes cleared.natures = (kind.codes line.natures).filter keep
  rw [same, Kind.codes, Kind.codes, List.filter_map, List.filter_filter, List.filter_filter]
  congr 1
  apply List.filter_congr
  intro device _
  exact Bool.and_comm _ _

/-- A search for one family goes through the family from the code that its first pass comes to, and
then through the corrupt codes right behind the family: each of them fails a call before one finds
nothing and leaves the search exhausted. Without the corrupt devices of other families it goes
through the family alone, so they are noticed exactly if one of them is the first code behind it. -/
theorem targeted_search_strays (drives : master.Drives line) (free : line.stuckLow = false)
    (others : other.Drives cleared) (also_free : cleared.stuckLow = false)
    (without : cleared.natures = line.natures.filter fun device =>
      device.rom.family == family || device.rom.isValid)
    (targeted : family ≠ 0) (someone : ∃ code ∈ kind.codes line.devices, code.family = family)
    (families : ∀ code ∈ kind.codes line.devices, code.family ≠ 0) :
    let codes := kind.codes line.devices
    ∃ entry ∈ codes, entry.family = family ∧
      (∀ code ∈ codes, code.family = family →
        code = entry.setBit 63 false ∨ entry.order ≤ code.order) ∧
      let found := entry :: familyAhead codes (some entry) family
      (∀ count, ∃ state after,
        perform (ε := ε) master (nexts count) (State.ofFamily kind family) line =
          (.ok (outcomes (found ++ strays codes entry) count), state, after) ∧
        ((found ++ strays codes entry).length < count → state.exhausted = true)) ∧
      (∀ count, ∃ state after,
        perform (ε := ε) other (nexts count) (State.ofFamily kind family) cleared =
          (.ok (outcomes found count), state, after) ∧
        (found.length < count → state.exhausted = true)) ∧
      ((∀ count, (perform (ε := ε) master (nexts count) (State.ofFamily kind family) line).1 =
          (perform (ε := ε) other (nexts count) (State.ofFamily kind family) cleared).1) ↔
        ∀ code ∈ (strangers codes entry).head?, code.isValid = true) := by
  intro codes
  obtain ⟨member, present, inside⟩ := someone
  obtain ⟨entry, led⟩ := exists_led (List.ne_nil_of_mem present) (steering (Rom.seed family) 64)
  have reached : entry.family = family := led.seeded_family present inside
  subst reached
  have fewer : kind.codes cleared.devices =
      codes.filter fun code => code.family == entry.family || code.isValid := codes_cleared without
  have still_led : Led (kind.codes cleared.devices) (steering (Rom.seed entry.family) 64) entry 64 := by
    apply led.of_subset
    · rw [fewer]
      exact List.filter_sublist.subset
    · rw [fewer]
      exact List.mem_filter.mpr ⟨led.mem, by simp⟩
  have kept_families : ∀ code ∈ kind.codes cleared.devices, code.family ≠ 0 := by
    rw [fewer]
    exact fun code listed => families code (List.mem_of_mem_filter listed)
  have on_line := perform_nexts_targeted (ε := ε) drives free targeted families led rfl
  have on_cleared :=
    perform_nexts_targeted (ε := ε) others also_free targeted kept_families still_led rfl
  rw [following_eq, ← List.cons_append] at on_line
  rw [fewer, following_cleared] at on_cleared
  refine ⟨entry, led.mem, rfl, fun code listed same => led.seeded_entry rfl listed same, on_line,
    on_cleared, ?_⟩
  rw [← strays_eq_nil_iff, ← outcomes_append_eq_iff (ε := ε)
    (entry :: familyAhead codes (some entry) entry.family)]
  apply forall_congr'
  intro count
  obtain ⟨_, _, whole, -⟩ := on_line count
  obtain ⟨_, _, part, -⟩ := on_cleared count
  rw [whole, part]
  constructor
  · exact Except.ok.inj
  · exact congrArg Except.ok

theorem targeted_search_strays_by_one :
    let member : Rom := ⟨0x1e00000000000028⟩
    let stranger : Rom := ⟨0x0000000000000001⟩
    let line := (SimulatedLine.populate { capacity := 2 } [{ rom := member }, { rom := stranger }]).1
    let cleared := (SimulatedLine.populate { capacity := 2 } [{ rom := member }]).1
    (perform (ε := Empty) ⟨Timing.standard, 12⟩ (nexts 3) (State.ofFamily .normal 0x28) line).1 =
        .ok [.ok (some member), .error .invalidCrc, .ok none] ∧
      (perform (ε := Empty) ⟨Timing.standard, 12⟩ (nexts 3) (State.ofFamily .normal 0x28) cleared).1 =
        .ok [.ok (some member), .ok none, .ok none] := by
  intro member stranger line cleared
  have new : ∀ rom ∈ [member, stranger], ({ rom } : Device).IsNew :=
    fun rom _ => Device.isNew_of_rom rom false
  have drives : (Master.mk Timing.standard 12).Drives line :=
    Master.Drives.populated (List.forall_mem_cons.mpr
      ⟨new member (by simp), List.forall_mem_singleton.mpr (new stranger (by simp))⟩) 2
  have others : (Master.mk Timing.standard 12).Drives cleared :=
    Master.Drives.populated (List.forall_mem_singleton.mpr (new member (by simp))) 2
  have codes : Kind.normal.codes line.devices = [member, stranger] := rfl
  have valid : member.isValid = true := by decide +kernel
  have corrupt : stranger.isValid = false := by decide +kernel
  have inside : member.family = 0x28 := by decide +kernel
  have outside : stranger.family ≠ 0x28 := by decide +kernel
  have without : cleared.natures = line.natures.filter fun device =>
      device.rom.family == 0x28 || device.rom.isValid := by decide +kernel
  have families : ∀ code ∈ Kind.normal.codes line.devices, code.family ≠ 0 := by
    rw [codes]
    decide +kernel
  obtain ⟨entry, listed, reached, -, on_line, on_cleared, -⟩ :=
    targeted_search_strays (ε := Empty) drives rfl others rfl without (by decide)
      ⟨member, by rw [codes]; exact List.mem_cons_self, inside⟩ families
  obtain rfl : entry = member := by
    rw [codes] at listed
    rcases List.mem_cons.mp listed with same | rest
    · exact same
    · rw [List.mem_singleton.mp rest] at reached
      exact absurd reached outside
  have order : Rom.inOrder [member, stranger] = [member, stranger] :=
    Rom.inOrder_eq (by decide +kernel) fun _ => Iff.rfl
  have later : ahead [member, stranger] (some member) = [stranger] := by
    rw [ahead, order]
    decide +kernel
  have alone : familyAhead [member, stranger] (some member) 0x28 = [] := by
    rw [familyAhead, later]
    decide +kernel
  have stray : strays [member, stranger] member = [stranger] := by
    rw [strays, strangers, later]
    decide +kernel
  obtain ⟨_, _, whole, -⟩ := on_line 3
  obtain ⟨_, _, part, -⟩ := on_cleared 3
  rw [codes, alone] at whole part
  rw [stray] at whole
  rw [whole, part]
  simp [outcomes, verdict, valid, corrupt]

end SingleWire.Search
