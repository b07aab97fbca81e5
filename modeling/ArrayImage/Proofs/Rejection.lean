import ArrayImage.Proofs.Faults
import ArrayImage.Proofs.Reports
import ArrayImage.Proofs.ShimMux
import ArrayImage.Proofs.Stepwise
import ArrayImage.Proofs.Switching

/-!
# ArrayImage.Proofs.Rejection

What one item of the stream phase leaves behind.

A connect, a master set, a packet table or a connect through the shim mux is routed or rejected.
`StreamItem.Leaves` has one case for each way in which that can end: a routed item has its registers
and no diagnostic, a rejected one has a diagnostic and no register, and only packet tables are in
between, one rule at a time. Except for tiles of column 0, a run of an item ends in one of these
cases unless a select overflows (`StreamItem.perform_leaves`). There, no register can be written, so
what would be routed ends the run (`StreamItem.columnZero_not_leaves`).
-/

namespace ArrayImage

open RegisterMap

/-! ## Selects -/

namespace Switchbox

/-- The select of some amsel has no bit in a word, and all amsels before it are known. -/
inductive Overflows (s : Switchbox) : List String → Prop where
  | here {name rest} {a : Amsel} (known : s.amsel? name = some a) (wide : 32 ≤ a.msel) :
      Overflows s (name :: rest)
  | there {name rest} {a : Amsel} (known : s.amsel? name = some a) (later : Overflows s rest) :
      Overflows s (name :: rest)

theorem Overflows.select_eq {s : Switchbox} {names : List String} (h : s.Overflows names)
    (mask : Word) (arbiter : Option UInt8) :
    s.select names mask arbiter = .fault .shiftOverflow := by
  induction h generalizing mask arbiter with
  | here known wide =>
    rw [select, known]
    exact if_neg (UInt8.not_lt.mpr wide)
  | there known later ih =>
    rw [select, known]
    simp only [ih, ite_self]

theorem overflows_of_select {s : Switchbox} {names : List String} {mask : Word}
    {arbiter : Option UInt8} {f : Fault} (h : s.select names mask arbiter = .fault f) :
    s.Overflows names := by
  induction names generalizing mask arbiter with
  | nil => cases h
  | cons name rest ih =>
    rw [select] at h
    cases known : s.amsel? name with
    | none =>
      simp only [known] at h
      cases h
    | some a =>
      simp only [known] at h
      split at h
      · exact .there known (ih h)
      · exact .here known (UInt8.not_lt.mp ‹_›)

theorem find?_of_select {s : Switchbox} {names : List String} {mask : Word}
    {arbiter : Option UInt8} {name : String} (h : s.select names mask arbiter = .unknown name) :
    names.find? (fun n => (s.amsel? n).isNone) = some name := by
  induction names generalizing mask arbiter with
  | nil => cases h
  | cons x rest ih =>
    rw [select] at h
    cases known : s.amsel? x with
    | none =>
      simp only [known] at h
      cases h
      rw [List.find?_cons_of_pos (by rw [known]; rfl)]
    | some a =>
      simp only [known] at h
      rw [List.find?_cons_of_neg (by rw [known]; simp)]
      split at h
      · exact ih h
      · cases h

end Switchbox

/-! ## Items -/

/-- What the stream phase is asked for, one thing at a time: items of switches, and connects
through a shim mux. -/
inductive StreamItem where
  | routing (x : RoutingItem)
  | mux (c : Connect)

def Progress.report (p : Progress) (t : TileId) (x : Problem) : Progress :=
  { p with diagnostics := p.diagnostics ++ [x.on t] }

/-- The registers of slave port `slave` after the rules of a table. Slots without a rule that can be
placed keep what they have, and so does the slave register when there are only such slots. -/
structure PacketTable.Placed (t : TileId) (s : Switchbox) (p : PacketTable) (slave : Nat)
    (before after : WriteLog) : Prop where
  slot : ∀ k < slotsPerPort, after.get? (t.address (slotOffset slave k)) =
    (p.rules[k]?.bind s.ruleWord?).or (before.get? (t.address (slotOffset slave k)))
  enable : after.get? (t.address (slaveOffset slave)) =
    if s.hasKnownRule p then some 0xC0000000 else before.get? (t.address (slaveOffset slave))
  others : ∀ a, (∀ k < slotsPerPort, a ≠ t.address (slotOffset slave k)) →
    a ≠ t.address (slaveOffset slave) → after.get? a = before.get? a

/-- The problems of a table on a port that the switch has: one for each rule with a slot but
without an amsel, and one for all rules without a slot. -/
def PacketTable.problems (s : Switchbox) (p : PacketTable) : List Problem :=
  ((p.rules.take slotsPerPort).filter fun r => (s.amsel? r.amsel).isNone).map
      (fun r => .ruleAmsel r.amsel) ++
    if slotsPerPort < p.rules.length then [.tooManyRules p.source] else []

namespace StreamItem

def steps (t : TileId) : StreamItem → Script
  | routing x => x.steps t
  | mux c => c.muxSteps t

/-- A select of the item overflows. Only master sets shift by a select. -/
def Overflows (t : TileId) : StreamItem → Prop
  | routing (.masterSet s m) =>
    (∃ master, m.dest.number .master t.isShim = .ok master) ∧ s.Overflows m.amsels
  | routing (.connect _) | routing (.packetTable _ _) | mux _ => False

/-- What an item leaves of a run that has come to `p`. -/
inductive Leaves (t : TileId) (p : Progress) : StreamItem → Progress → Prop where
  /-- Both ports of a circuit have their registers. -/
  | connect {c : Connect} {slave master : Nat} {after : WriteLog}
      (source : c.source.number .slave t.isShim = .ok slave)
      (dest : c.dest.number .master t.isShim = .ok master)
      (registers : Updated t [(masterOffset master, .put (0x80000000 ||| .ofNat slave)),
        (slaveOffset slave, .put 0x80000000)] p.log after) :
      Leaves t p (routing (.connect c)) ⟨after, p.diagnostics⟩
  /-- The switch does not have the source of a circuit. Its dest does not matter. -/
  | connectSource {c : Connect} {e : RouteError}
      (source : c.source.number .slave t.isShim = .error e) :
      Leaves t p (routing (.connect c)) (p.report t (.route e))
  /-- The switch has the source of a circuit, but not its dest. -/
  | connectDest {c : Connect} {slave : Nat} {e : RouteError}
      (source : c.source.number .slave t.isShim = .ok slave)
      (dest : c.dest.number .master t.isShim = .error e) :
      Leaves t p (routing (.connect c)) (p.report t (.route e))
  /-- The dest of a master set has its register. -/
  | masterSet {s : Switchbox} {m : MasterSet} {master : Nat} {word : Word} {after : WriteLog}
      (dest : m.dest.number .master t.isShim = .ok master) (word_eq : s.masterSetWord? m = some word)
      (registers : Updated t [(masterOffset master, .put word)] p.log after) :
      Leaves t p (routing (.masterSet s m)) ⟨after, p.diagnostics⟩
  /-- The switch does not have the dest of a master set. Its amsels do not matter. -/
  | masterDest {s : Switchbox} {m : MasterSet} {e : RouteError}
      (dest : m.dest.number .master t.isShim = .error e) :
      Leaves t p (routing (.masterSet s m)) (p.report t (.route e))
  /-- A master set has an unknown amsel. The first one is reported. -/
  | masterAmsel {s : Switchbox} {m : MasterSet} {master : Nat} {name : String}
      (dest : m.dest.number .master t.isShim = .ok master)
      (unknown : m.amsels.find? (fun n => (s.amsel? n).isNone) = some name) :
      Leaves t p (routing (.masterSet s m)) (p.report t (.masterAmsel m.dest name))
  /-- A master set has no amsels at all. -/
  | masterEmpty {s : Switchbox} {m : MasterSet} {master : Nat}
      (dest : m.dest.number .master t.isShim = .ok master) (empty : m.amsels = []) :
      Leaves t p (routing (.masterSet s m)) (p.report t (.masterWithoutAmsel m.dest))
  /-- The rules of a packet table are placed one by one. -/
  | packetTable {s : Switchbox} {x : PacketTable} {slave : Nat} {after : WriteLog}
      (source : x.source.number .slave t.isShim = .ok slave)
      (registers : x.Placed t s slave p.log after) :
      Leaves t p (routing (.packetTable s x))
        ⟨after, p.diagnostics ++ (x.problems s).map (·.on t)⟩
  /-- The switch does not have the source of a packet table. Its rules do not matter. -/
  | tableSource {s : Switchbox} {x : PacketTable} {e : RouteError}
      (source : x.source.number .slave t.isShim = .error e) :
      Leaves t p (routing (.packetTable s x)) (p.report t (.route e))
  /-- A stream through the mux has its select. Other bits of the register stay. -/
  | mux {c : Connect} {x : MuxStream} {select : Nat} {after : WriteLog} (crosses : c.Crosses x select)
      (registers : Updated t [(x.register, .raise (Word.ofNat select <<< x.low))] p.log after) :
      Leaves t p (mux c) ⟨after, p.diagnostics⟩
  /-- A connect stays on this side of the mux. -/
  | muxApart {c : Connect} (source : c.source.bundle ≠ .north) (dest : c.dest.bundle ≠ .north) :
      Leaves t p (mux c) p
  /-- The mux cannot do what a connect asks for. -/
  | muxError {c : Connect} {e : RouteError} (error : c.muxBits = .error e) :
      Leaves t p (mux c) (p.report t (.route e))

end StreamItem

/-! ## Runs of items -/

variable {t : TileId}

theorem Connect.perform_steps (hc : 0 < t.column) (c : Connect) (p : Progress) :
    ∃ q, Script.perform (c.steps t) p = .ok q ∧
      StreamItem.Leaves t p (.routing (.connect c)) q := by
  have hlimit := Port.limit_le t.isShim
  cases hs : c.source.number .slave t.isShim with
  | error e =>
    refine ⟨p.report t (.route e), ?_, .connectSource hs⟩
    rw [steps, hs]
    rfl
  | ok slave =>
    cases hd : c.dest.number .master t.isShim with
    | error e =>
      refine ⟨p.report t (.route e), ?_, .connectDest hs hd⟩
      rw [steps, hs]
      simp only [hd]
      rfl
    | ok master =>
      have hslave := Port.number_lt hs
      have hmaster := Port.number_lt hd
      obtain ⟨after, hrun, hupd⟩ := Script.perform_puts hc
        [(masterOffset master, .put (0x80000000 ||| .ofNat slave)),
          (slaveOffset slave, .put 0x80000000)]
        (by simpa using ⟨masterOffset_lt (by omega), slaveOffset_lt (by omega)⟩)
        (by simpa using masterOffset_ne_slaveOffset (by omega) slave) p
      refine ⟨_, ?_, .connect hs hd hupd⟩
      rw [steps, hs]
      simp only [hd, StreamWord.circuitMaster_ofNat slave (by omega), StreamWord.circuitSlave_eq]
      exact hrun

/-- What becomes of the amsels of a master set, unless a select overflows. -/
theorem MasterSet.steps_of_dest {s : Switchbox} {m : MasterSet} {master : Nat}
    (hd : m.dest.number .master t.isShim = .ok master) (ho : ¬ s.Overflows m.amsels) :
    (∃ word, s.masterSetWord? m = some word ∧
      m.steps t s = [Step.put t (masterOffset master) (.put word)]) ∨
    (∃ name, m.amsels.find? (fun n => (s.amsel? n).isNone) = some name ∧
      m.steps t s = [.report t (.masterAmsel m.dest name)]) ∨
    (m.amsels = [] ∧ m.steps t s = [.report t (.masterWithoutAmsel m.dest)]) := by
  rw [steps, hd]
  cases hsel : s.select m.amsels 0 none with
  | unknown name => exact .inr (.inl ⟨name, Switchbox.find?_of_select hsel, rfl⟩)
  | fault f => exact absurd (Switchbox.overflows_of_select hsel) ho
  | selected mask arbiter =>
    cases arbiter with
    | none =>
      refine .inr (.inr ⟨?_, rfl⟩)
      by_contra hne
      cases Switchbox.select_arbiter hsel (.inl hne)
    | some arbiter =>
      obtain ⟨amsels, hm, rfl, harb⟩ := Switchbox.select_eq_selected hsel
      rw [Option.or_none, eq_comm, Option.map_eq_some_iff] at harb
      obtain ⟨last, hl, rfl⟩ := harb
      refine .inl ⟨_, by simp only [Switchbox.masterSetWord?, hm, hl, Option.map_some]; rfl, ?_⟩
      simp [StreamWord.packetMaster_eq]

theorem MasterSet.perform_overflow {s : Switchbox} {m : MasterSet} {master : Nat}
    (hd : m.dest.number .master t.isShim = .ok master) (ho : s.Overflows m.amsels) (p : Progress) :
    Script.perform (m.steps t s) p = .error (.fault .shiftOverflow) := by
  rw [steps, hd]
  simp only [ho.select_eq]
  rfl

theorem MasterSet.perform_steps (hc : 0 < t.column) {s : Switchbox} {m : MasterSet}
    (ho : ¬ StreamItem.Overflows t (.routing (.masterSet s m))) (p : Progress) :
    ∃ q, Script.perform (m.steps t s) p = .ok q ∧
      StreamItem.Leaves t p (.routing (.masterSet s m)) q := by
  have hlimit := Port.limit_le t.isShim
  cases hd : m.dest.number .master t.isShim with
  | error e =>
    refine ⟨p.report t (.route e), ?_, .masterDest hd⟩
    rw [steps, hd]
    rfl
  | ok master =>
    have hmaster := Port.number_lt hd
    rcases steps_of_dest hd fun h => ho ⟨⟨master, hd⟩, h⟩ with
      ⟨word, hword, hsteps⟩ | ⟨name, hname, hsteps⟩ | ⟨hempty, hsteps⟩
    · obtain ⟨after, hrun, hupd⟩ := Script.perform_puts hc [(masterOffset master, .put word)]
        (by simpa using masterOffset_lt (by omega)) (List.pairwise_singleton _ _) p
      exact ⟨_, hsteps ▸ hrun, .masterSet hd hword hupd⟩
    · exact ⟨_, by rw [hsteps]; rfl, .masterAmsel hd hname⟩
    · exact ⟨_, by rw [hsteps]; rfl, .masterEmpty hd hempty⟩

/-! ### Packet tables -/

theorem PacketRule.lastWord?_elsewhere {s : Switchbox} {r : PacketRule} {slave k a : Nat}
    (hs : Script.Completes (r.steps t s slave k)) (hslave : a ≠ t.address (slaveOffset slave))
    (hslot : a ≠ t.address (slotOffset slave k)) :
    Script.lastWord? (r.steps t s slave k) a = none := by
  unfold steps at hs ⊢
  cases ha : s.amsel? r.amsel with
  | none => rfl
  | some amsel =>
    simp only [ha, Script.completes_cons, Script.completes_nil, and_true] at hs ⊢
    rw [Script.lastWord?_cons, Script.lastWord?_cons, Step.wordAt?_put hs.1,
      Step.wordAt?_put hs.2, if_neg hslave.symm, if_neg hslot.symm]
    rfl

theorem PacketTable.lastWord?_elsewhere {s : Switchbox} {x : PacketTable} {slave a : Nat}
    (hs : Script.Completes (x.steps t s)) (hn : x.source.number .slave t.isShim = .ok slave)
    (hslots : ∀ k < slotsPerPort, a ≠ t.address (slotOffset slave k))
    (hslave : a ≠ t.address (slaveOffset slave)) : Script.lastWord? (x.steps t s) a = none := by
  rw [lastWord?_steps hn, Script.lastWord?_flatMap (g := fun _ => none)]
  · simp
  · rintro ⟨r, k⟩ hx
    obtain ⟨-, hk, -⟩ := List.mem_zipIdx hx
    have hk : k < slotsPerPort := by
      rw [List.length_take] at hk
      omega
    exact PacketRule.lastWord?_elsewhere (completes_rule hs hn _ hx) hslave (hslots k hk)

theorem PacketTable.placed_steps (hc : 0 < t.column) {s : Switchbox} {x : PacketTable} {slave : Nat}
    (hn : x.source.number .slave t.isShim = .ok slave) (log : WriteLog) :
    x.Placed t s slave log (Script.applyTo (x.steps t s) log) := by
  have hs := x.completes_steps hc s
  have hlimit := Port.limit_le t.isShim
  have hlt := Port.number_lt hn
  have hmap := Port.mapped?_of_number_ok hn
  have hget : ∀ a, (Script.applyTo (x.steps t s) log).get? a =
      (Script.lastWord? (x.steps t s) a).or (log.get? a) := fun a =>
    Script.get?_applyTo_of_puts hs fun w hw _ => (x.isRoute_steps t s w hw).2
  constructor
  · intro k hk
    rw [hget, lastWord?_slot hs (by omega) hk, RoutingItem.slotWord?, if_pos hmap]
  · rw [hget, lastWord?_slave hs (by omega), RoutingItem.slaveWord?]
    by_cases hknown : s.hasKnownRule x <;> simp [hmap, hknown]
  · intro a hslots hslave
    rw [hget, lastWord?_elsewhere hs hn hslots hslave, Option.none_or]

theorem PacketRule.reports_eq {s : Switchbox} {slave k : Nat} (r : PacketRule) :
    Script.reports (r.steps t s slave k) =
      if (s.amsel? r.amsel).isNone then [(t, .ruleAmsel r.amsel)] else [] := by
  unfold steps
  cases ha : s.amsel? r.amsel with
  | none => rfl
  | some amsel => simp [Script.reports]

theorem PacketTable.reports_of_source {s : Switchbox} {x : PacketTable} {slave : Nat}
    (hn : x.source.number .slave t.isShim = .ok slave) :
    Script.reports (x.steps t s) = (x.problems s).map (t, ·) := by
  have hfst : ∀ rules : List PacketRule,
      rules.zipIdx.flatMap (fun y => if (s.amsel? y.1.amsel).isNone then
        [(t, Problem.ruleAmsel y.1.amsel)] else []) =
      rules.flatMap fun r => if (s.amsel? r.amsel).isNone then
        [(t, Problem.ruleAmsel r.amsel)] else [] := fun rules => by
    conv_rhs => rw [← List.zipIdx_map_fst 0 rules, List.flatMap_map]
  rw [steps, hn]
  simp only [List.mapIdx_eq_zipIdx_map, ← List.flatMap_def, Script.reports_append,
    Script.reports_flatMap, PacketRule.reports_eq]
  rw [hfst, flatMap_ite_singleton, problems, List.map_append, List.map_map]
  congr 1
  split <;> rfl

theorem PacketTable.perform_steps (hc : 0 < t.column) (s : Switchbox) (x : PacketTable)
    (p : Progress) :
    ∃ q, Script.perform (x.steps t s) p = .ok q ∧
      StreamItem.Leaves t p (.routing (.packetTable s x)) q := by
  cases hn : x.source.number .slave t.isShim with
  | error e =>
    refine ⟨p.report t (.route e), ?_, .tableSource hn⟩
    rw [steps, hn]
    rfl
  | ok slave =>
    have hs := x.completes_steps hc s
    refine ⟨_, ?_, .packetTable hn (placed_steps hc hn p.log)⟩
    rw [Script.perform_eq, hs]
    simp only [Script.diagnostics_eq_reports hs, reports_of_source hn, List.map_map]
    rfl

/-! ### Shim muxes -/

/-- A connect to or from the north has bits or an error. -/
theorem muxField_ne_none {register : Nat} {shift : Except RouteError Nat}
    {select : Except RouteError Word} :
    (do
        let low ← shift
        let w ← select
        return some (register, w <<< low)) ≠ Except.ok none := by
  cases shift with
  | error e => nofun
  | ok low => cases select <;> nofun

theorem Connect.muxBits_eq_none {c : Connect} (h : c.muxBits = .ok none) :
    c.source.bundle ≠ .north ∧ c.dest.bundle ≠ .north := by
  unfold muxBits at h
  split_ifs at h with hs hd
  · exact absurd h muxField_ne_none
  · exact absurd h muxField_ne_none
  · exact ⟨hs, hd⟩

theorem Connect.perform_muxSteps (hc : 0 < t.column) (c : Connect) (p : Progress) :
    ∃ q, Script.perform (c.muxSteps t) p = .ok q ∧ StreamItem.Leaves t p (.mux c) q := by
  unfold muxSteps
  cases hb : c.muxBits with
  | error e => exact ⟨_, rfl, .muxError hb⟩
  | ok field =>
    cases field with
    | none =>
      obtain ⟨hs, hd⟩ := muxBits_eq_none hb
      exact ⟨p, rfl, .muxApart hs hd⟩
    | some field =>
      obtain ⟨o, bits⟩ := field
      obtain ⟨x, select, hcross, rfl, rfl⟩ := muxBits_eq_some_iff.mp hb
      have hlt : x.register < windowSize := by
        rcases muxBits_offset hb with ho | ho <;> rw [ho] <;> decide
      obtain ⟨after, hrun, hupd⟩ := Script.perform_puts hc
        [(x.register, .raise (Word.ofNat select <<< x.low))]
        (by simpa using hlt) (List.pairwise_singleton _ _) p
      exact ⟨_, hrun, .mux hcross hupd⟩

/-! ## All items -/

namespace StreamItem

/-- Except on tiles of column 0, a run of an item is ended by a select that overflows and by nothing
else. Otherwise the item is routed with just its registers, or rejected with just its diagnostic,
or it is a packet table and that is so for each of its rules. -/
theorem perform_leaves (hc : 0 < t.column) (x : StreamItem) (p : Progress) :
    (x.Overflows t → (x.steps t).perform p = .error (.fault .shiftOverflow)) ∧
    (¬ x.Overflows t → ∃ q, (x.steps t).perform p = .ok q ∧ Leaves t p x q) := by
  rcases x with (c | ⟨s, m⟩ | ⟨s, y⟩) | c
  · exact ⟨False.elim, fun _ => c.perform_steps hc p⟩
  · exact ⟨fun ⟨⟨_, hd⟩, ho⟩ => MasterSet.perform_overflow hd ho p,
      fun ho => MasterSet.perform_steps hc ho p⟩
  · exact ⟨False.elim, fun _ => y.perform_steps hc s p⟩
  · exact ⟨False.elim, fun _ => c.perform_muxSteps hc p⟩

def narrowSwitch : Switchbox :=
  ⟨3, 1, [], [⟨"near", 1, 3⟩, ⟨"far", 2, 32⟩], [], []⟩

def mixedTable : PacketTable :=
  ⟨⟨.south, 1⟩, [⟨31, 4, "near"⟩, ⟨31, 5, "none"⟩, ⟨31, 6, "near"⟩, ⟨31, 7, "near"⟩,
    ⟨31, 8, "near"⟩]⟩

def wideSet : MasterSet :=
  ⟨⟨.north, 0⟩, ["near", "far", "none"]⟩

theorem mixedTable_leaves : ∃ t, TileId.at? 1 3 1 = .ok t ∧ 0 < t.column ∧
    (∃ q, (steps t (.routing (.packetTable narrowSwitch mixedTable))).perform (.start .empty) =
        .ok q ∧
      Leaves t (.start .empty) (.routing (.packetTable narrowSwitch mixedTable)) q) ∧
    (steps t (.routing (.masterSet narrowSwitch wideSet))).perform (.start .empty) =
      .error (.fault .shiftOverflow) := by
  let t : TileId := { array := 1, column := 3, row := 1 }
  have hc : 0 < t.column := by decide
  refine ⟨t, rfl, hc, (perform_leaves hc _ _).2 id, (perform_leaves hc _ _).1 ⟨⟨15, rfl⟩, ?_⟩⟩
  exact .there (a := ⟨"near", 1, 3⟩) rfl (.here (a := ⟨"far", 2, 32⟩) rfl (by decide))

/-- The rule without an amsel has no word, and the last one no slot. -/
example : (mixedTable.rules.take slotsPerPort).map narrowSwitch.ruleWord? =
      [some 0x041F0131, none, some 0x061F0131, some 0x071F0131] ∧
    mixedTable.problems narrowSwitch = [.ruleAmsel "none", .tooManyRules ⟨.south, 1⟩] := by
  decide +kernel

/-- On a tile of column 0, a circuit with both of its ports is neither routed nor rejected. -/
theorem columnZero_not_leaves :
    ¬ ∀ (t : TileId) (x : StreamItem) (p : Progress), ¬ x.Overflows t →
      ∃ q, (x.steps t).perform p = .ok q ∧ Leaves t p x q := by
  intro h
  let t : TileId := { array := 0, column := 0, row := 1 }
  obtain ⟨q, hrun, -⟩ := h t (.routing (.connect ⟨⟨.south, 0⟩, ⟨.dma, 0⟩⟩)) (.start .empty) id
  have hfault : (steps t (.routing (.connect ⟨⟨.south, 0⟩, ⟨.dma, 0⟩⟩))).perform
      (.start .empty) = .error (.fault (.writeToColumnZero 0x3F008)) := rfl
  rw [hfault] at hrun
  cases hrun

end StreamItem
end ArrayImage
