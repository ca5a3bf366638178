import LS8.Saved
import Mathlib.Data.List.Forall2
/-! The forms of saved values, said without reading them. A record is an object with the values of
its fields under their names, whatever else is in it, or the array of these values; a name stands
for itself or is the one field of an object. Each part of a machine but the memory is settled here:
its reader accepts exactly the forms of its values (the lemmas `ofJson_eq_ok_iff`) and never finds a
wrong number of cells (`Uncounted`). -/

namespace LS8

namespace Saved

variable {α β : Type}

/-! Forms. -/

/-- A name, by itself or as the one field of an object, with null in it. -/
def IsName (name : String) (j : Json) : Prop :=
  j = .str name ∨ j = .obj [(name, .null)]

/-- A field of a record: its name, the forms of its value in a record, and in which records an
object may leave it out. -/
structure RecordField (α : Type) where
  name : String
  form : α → Json → Prop
  optional : α → Prop

def RecordField.required (name : String) (form : α → Json → Prop) : RecordField α :=
  ⟨name, form, fun _ => False⟩

def RecordField.Given (f : RecordField α) (x : α) (given : List (String × Json)) : Prop :=
  match given.lookup f.name with
  | some v => f.form x v
  | none => f.optional x

/-- The forms of a record with these fields: an object among whose fields they are, or the array of
their values and of nothing else. -/
def IsRecord (fields : List (RecordField α)) (x : α) : Json → Prop
  | .obj given => ∀ f ∈ fields, f.Given x given
  | .arr items => List.Forall₂ (fun f v => f.form x v) fields items
  | _ => False

/-- The value that a record has for a name: under the name in an object, at the name's place in an
array. -/
def valueFor? (names : List String) (name : String) : Json → Option Json
  | .obj given => given.lookup name
  | .arr items => items[names.idxOf name]?
  | _ => none

def sortsBefore (x y : String) : Bool :=
  x.toList.lex y.toList fun c d => c.toNat < d.toNat

/-- Whether the value for `x` is looked at before the value for `y`. Those of an object are looked
at in the order of their names, those of an array as they stand. -/
def LookedAtFirst (names : List String) (x y : String) : Json → Prop
  | .obj _ => sortsBefore x y
  | _ => names.idxOf x < names.idxOf y

/-- The value for a name is one that `wrong` describes, and the values that are looked at before it
are those of some records each. -/
def FirstWrong (fields : List (RecordField α)) (name : String) (wrong : Json → Prop) (j : Json) :
    Prop :=
  let names := fields.map RecordField.name
  ∃ v, valueFor? names name j = some v ∧ wrong v ∧
    ∀ f ∈ fields, LookedAtFirst names f.name name j →
      ∀ w, valueFor? names f.name j = some w → ∃ x, f.form x w

theorem RecordField.given_required_iff {name : String} {form : α → Json → Prop} {x : α}
    {given : List (String × Json)} : (required name form).Given x given ↔
      ∃ v, given.lookup name = some v ∧ form x v := by
  unfold Given required
  dsimp only
  cases given.lookup name <;> simp

/-! Chains of readers. -/

theorem bind_eq_ok_iff {ε : Type} {x : Except ε α} {f : α → Except ε β} {b : β} :
    (x >>= f) = .ok b ↔ ∃ a, x = .ok a ∧ f a = .ok b := by
  cases x with
  | error e => simp [bind, Except.bind]
  | ok a => simp [bind, Except.bind]

theorem map_eq_ok_iff {ε : Type} {x : Except ε α} {f : α → β} {b : β} :
    x.map f = .ok b ↔ ∃ a, x = .ok a ∧ f a = b := by
  cases x with
  | error e => simp [Except.map]
  | ok a => simp [Except.map]

theorem mapM_eq_ok_some_iff {ε : Type} {o : Option α} {read : α → Except ε β} {x : β} :
    o.mapM read = .ok (some x) ↔ ∃ v, o = some v ∧ read v = .ok x := by
  cases o with
  | none => simp [pure, Except.pure]
  | some v => cases h : read v <;> simp [h, Functor.map, Except.map]

theorem mapM_eq_ok_iff {ε : Type} {o : Option α} {read : α → Except ε β} :
    (∃ o', o.mapM read = .ok o') ↔ ∀ v, o = some v → ∃ x, read v = .ok x := by
  cases o with
  | none => simp [pure, Except.pure]
  | some v => cases h : read v <;> simp [h, Functor.map, Except.map]

theorem mapM_eq_error_iff {ε : Type} {o : Option α} {read : α → Except ε β} {e : ε} :
    o.mapM read = .error e ↔ ∃ v, o = some v ∧ read v = .error e := by
  cases o with
  | none => simp [pure, Except.pure]
  | some v => cases h : read v <;> simp [h, Functor.map, Except.map]

/-- A reading that is not refused for a number of cells. -/
def Uncounted (x : Except Refusal α) : Prop :=
  ∀ n, x ≠ .error (.cellCount n)

theorem uncounted_ok (a : α) : Uncounted (.ok a) :=
  fun _ => nofun

theorem uncounted_malformed : Uncounted (.error .malformed : Except Refusal α) :=
  fun _ => nofun

theorem Uncounted.bind {x : Except Refusal α} {f : α → Except Refusal β} (hx : Uncounted x)
    (hf : ∀ a, Uncounted (f a)) : Uncounted (x >>= f) := by
  cases x with
  | error e => exact fun n h => hx n (by cases h; rfl)
  | ok a => exact hf a

theorem Uncounted.map {x : Except Refusal α} (hx : Uncounted x) (f : α → β) :
    Uncounted (x.map f) := by
  cases x with
  | error e => exact fun n h => hx n (by cases h; rfl)
  | ok a => exact uncounted_ok (f a)

theorem uncounted_mapM {o : Option Json} {read : Json → Except Refusal α}
    (h : ∀ j, Uncounted (read j)) : Uncounted (o.mapM read) := by
  intro n hn
  obtain ⟨v, -, hv⟩ := mapM_eq_error_iff.1 hn
  exact h v n hv

/-- The first refusal for a number of cells, where the readings before it are refused for other
reasons only. -/
theorem Uncounted.bind_eq_iff {x : Except Refusal α} {f : α → Except Refusal β} {n : Nat}
    (hx : Uncounted x) :
    (x >>= f) = .error (.cellCount n) ↔ ∃ a, x = .ok a ∧ f a = .error (.cellCount n) := by
  cases x with
  | error e =>
    constructor
    · intro h
      cases h
      exact absurd rfl (hx n)
    · rintro ⟨a, ha, -⟩
      cases ha
  | ok a => simp [Bind.bind, Except.bind]

theorem bind_eq_cellCount_iff {x : Except Refusal α} {f : α → Except Refusal β} {n : Nat}
    (hf : ∀ a, Uncounted (f a)) :
    (x >>= f) = .error (.cellCount n) ↔ x = .error (.cellCount n) := by
  cases x with
  | error e => simp [Bind.bind, Except.bind]
  | ok a => exact ⟨fun h => absurd h (hf a n), nofun⟩

/-! Numbers, byte sequences and names. -/

theorem natUpTo_eq_ok_iff {max n : Nat} {j : Json} :
    natUpTo max j = .ok n ↔ j = .int n ∧ n ≤ max := by
  constructor
  · intro h
    unfold natUpTo at h
    split at h
    next k =>
      split at h <;> cases h
      next hk => exact ⟨rfl, hk⟩
    next => cases h
  · rintro ⟨rfl, h⟩
    exact natUpTo_of_le h

theorem uncounted_natUpTo (max : Nat) (j : Json) : Uncounted (natUpTo max j) := by
  unfold natUpTo
  split
  · split
    · exact uncounted_ok _
    · exact uncounted_malformed
  · exact uncounted_malformed

theorem byte_eq_ok_iff {j : Json} {b : UInt8} : byte j = .ok b ↔ j = .int b.toNat := by
  constructor
  · intro h
    obtain ⟨n, hn, rfl⟩ := map_eq_ok_iff.1 h
    obtain ⟨rfl, hle⟩ := natUpTo_eq_ok_iff.1 hn
    rw [UInt8.toNat_ofNat', Nat.mod_eq_of_lt (by omega)]
  · rintro rfl
    exact byte_toNat b

theorem counter_eq_ok_iff {j : Json} {n : UInt64} : counter j = .ok n ↔ j = .int n.toNat := by
  constructor
  · intro h
    obtain ⟨k, hk, rfl⟩ := map_eq_ok_iff.1 h
    obtain ⟨rfl, hle⟩ := natUpTo_eq_ok_iff.1 hk
    have hlt : k < 2 ^ 64 := Nat.lt_of_le_of_lt hle (by decide)
    rw [UInt64.toNat_ofNat', Nat.mod_eq_of_lt hlt]
  · rintro rfl
    exact counter_toNat n

theorem mapM_byte_eq_ok_iff {items : List Json} {bs : List UInt8} :
    items.mapM byte = .ok bs ↔ items = bs.map fun b => .int b.toNat := by
  induction items generalizing bs with
  | nil =>
    cases bs with
    | nil => simp [pure, Except.pure]
    | cons b bs => simp [pure, Except.pure]
  | cons j items ih =>
    rw [List.mapM_cons, bind_eq_ok_iff]
    constructor
    · rintro ⟨b, hb, h⟩
      obtain ⟨bs', hbs', h⟩ := bind_eq_ok_iff.1 h
      cases h
      rw [List.map_cons, byte_eq_ok_iff.1 hb, ih.1 hbs']
    · intro h
      cases bs with
      | nil => cases h
      | cons b bs =>
        obtain ⟨rfl, hitems⟩ := List.cons.inj h
        exact ⟨b, byte_toNat b, bind_eq_ok_iff.2 ⟨bs, ih.2 hitems, rfl⟩⟩

theorem bytes_eq_ok_iff {j : Json} {bs : List UInt8} : bytes j = .ok bs ↔ j = .ofBytes bs := by
  constructor
  · intro h
    unfold bytes at h
    split at h
    next items => rw [mapM_byte_eq_ok_iff.1 h, Json.ofBytes]
    next => cases h
  · rintro rfl
    exact bytes_ofBytes bs

theorem uncounted_byte (j : Json) : Uncounted (byte j) :=
  (uncounted_natUpTo 255 j).map _

theorem uncounted_counter (j : Json) : Uncounted (counter j) :=
  (uncounted_natUpTo _ j).map _

theorem uncounted_bytes (j : Json) : Uncounted (bytes j) := by
  unfold bytes
  split
  next items =>
    induction items with
    | nil => exact uncounted_ok []
    | cons v items ih =>
      rw [List.mapM_cons]
      exact (uncounted_byte v).bind fun b => ih.bind fun bs => uncounted_ok (b :: bs)
  next => exact uncounted_malformed

theorem named_eq_ok_iff {ofName? : String → Option α} {j : Json} {x : α} :
    named ofName? j = .ok x ↔ ∃ name, IsName name j ∧ ofName? name = some x := by
  constructor
  · intro h
    unfold named at h
    dsimp only at h
    split at h
    next y hy =>
      cases h
      obtain ⟨name, hname, hx⟩ := Option.bind_eq_some_iff.1 hy
      refine ⟨name, ?_, hx⟩
      split at hname <;> cases hname
      · exact .inl rfl
      · exact .inr rfl
    next => cases h
  · rintro ⟨name, rfl | rfl, hx⟩
    · exact named_str hx
    · exact named_str hx

theorem uncounted_named (ofName? : String → Option α) (j : Json) :
    Uncounted (named ofName? j) := by
  unfold named
  dsimp only
  split
  · exact uncounted_ok _
  · exact uncounted_malformed

end Saved

open Saved

/-! The parts of a machine. -/

namespace Opcode

theorem ofName?_eq_some_iff {name : String} {op : Opcode} :
    ofName? name = some op ↔ name = op.name := by
  constructor
  · intro h
    have := List.find?_some h
    exact (beq_iff_eq.1 this).symm
  · rintro rfl
    exact ofName?_name op

theorem ofJson_eq_ok_iff {j : Json} {op : Opcode} : ofJson j = .ok op ↔ IsName op.name j := by
  rw [ofJson, named_eq_ok_iff]
  simp only [ofName?_eq_some_iff, exists_eq_right]

end Opcode

namespace RunState

theorem ofName?_eq_some_iff {name : String} {s : RunState} :
    ofName? name = some s ↔ name = s.name := by
  constructor
  · intro h
    have := List.find?_some h
    exact (beq_iff_eq.1 this).symm
  · rintro rfl
    cases s <;> rfl

theorem ofJson_eq_ok_iff {j : Json} {s : RunState} : ofJson j = .ok s ↔ IsName s.name j := by
  rw [ofJson, named_eq_ok_iff]
  simp only [ofName?_eq_some_iff, exists_eq_right]

end RunState

namespace Flags

def Form (f : Flags) (j : Json) : Prop :=
  j = .int f.bits.toNat

theorem ofJson_eq_ok_iff {j : Json} {f : Flags} : ofJson j = .ok f ↔ f.Form j := by
  rw [ofJson, map_eq_ok_iff, Form]
  constructor
  · rintro ⟨b, hb, rfl⟩
    exact byte_eq_ok_iff.1 hb
  · rintro rfl
    exact ⟨f.bits, byte_toNat _, rfl⟩

theorem uncounted_ofJson (j : Json) : Uncounted (ofJson j) :=
  (uncounted_byte j).map _

end Flags

namespace Instruction

def fields : List (RecordField Instruction) :=
  [.required "opcode" fun i => IsName i.opcode.name, .required "a" fun i j => j = .int i.a.toNat,
    .required "b" fun i j => j = .int i.b.toNat]

def Form : Instruction → Json → Prop :=
  IsRecord fields

theorem ofJson_eq_ok_iff {j : Json} {i : Instruction} : ofJson j = .ok i ↔ i.Form j := by
  constructor
  · intro h
    unfold ofJson at h
    split at h
    next given =>
      simp only [bind_eq_ok_iff] at h
      obtain ⟨a?, ha, b?, hb, op?, hop, h⟩ := h
      split at h <;> cases h
      obtain ⟨v, hv, ha⟩ := mapM_eq_ok_some_iff.1 ha
      obtain ⟨w, hw, hb⟩ := mapM_eq_ok_some_iff.1 hb
      obtain ⟨u, hu, hop⟩ := mapM_eq_ok_some_iff.1 hop
      simp only [Form, IsRecord, fields, List.forall_mem_cons, RecordField.given_required_iff]
      exact ⟨⟨u, hu, Opcode.ofJson_eq_ok_iff.1 hop⟩, ⟨v, hv, byte_eq_ok_iff.1 ha⟩,
        ⟨w, hw, byte_eq_ok_iff.1 hb⟩, nofun⟩
    next op a b =>
      simp only [bind_eq_ok_iff] at h
      obtain ⟨op', hop, a', ha, b', hb, h⟩ := h
      cases h
      exact .cons (Opcode.ofJson_eq_ok_iff.1 hop) <| .cons (byte_eq_ok_iff.1 ha) <|
        .cons (byte_eq_ok_iff.1 hb) .nil
    next => cases h
  · intro h
    cases j with
    | obj given =>
      simp only [Form, IsRecord, fields, List.forall_mem_cons, RecordField.given_required_iff] at h
      obtain ⟨⟨u, hu, hop⟩, ⟨v, hv, ha⟩, ⟨w, hw, hb⟩, -⟩ := h
      simp only [ofJson, bind_eq_ok_iff]
      exact ⟨_, mapM_eq_ok_some_iff.2 ⟨v, hv, byte_eq_ok_iff.2 ha⟩,
        _, mapM_eq_ok_some_iff.2 ⟨w, hw, byte_eq_ok_iff.2 hb⟩,
        _, mapM_eq_ok_some_iff.2 ⟨u, hu, Opcode.ofJson_eq_ok_iff.2 hop⟩, rfl⟩
    | arr items =>
      obtain - | ⟨hop, - | ⟨ha, - | ⟨hb, ⟨⟩⟩⟩⟩ := h
      simp only [ofJson, bind_eq_ok_iff]
      exact ⟨_, Opcode.ofJson_eq_ok_iff.2 hop, _, byte_eq_ok_iff.2 ha, _, byte_eq_ok_iff.2 hb, rfl⟩
    | _ => cases h

theorem uncounted_ofJson (j : Json) : Uncounted (ofJson j) := by
  unfold ofJson
  split
  · refine (uncounted_mapM uncounted_byte).bind fun a? => ?_
    refine (uncounted_mapM uncounted_byte).bind fun b? => ?_
    refine (uncounted_mapM (uncounted_named _)).bind fun op? => ?_
    split
    · exact uncounted_ok _
    · exact uncounted_malformed
  · exact (uncounted_named _ _).bind fun op => (uncounted_byte _).bind fun a =>
      (uncounted_byte _).bind fun b => uncounted_ok _
  · exact uncounted_malformed

def LastForm : Option Instruction → Json → Prop
  | none, j => j = .null
  | some i, j => i.Form j

theorem lastOfJson_eq_ok_iff {j : Json} {last : Option Instruction} :
    lastOfJson j = .ok last ↔ LastForm last j := by
  constructor
  · intro h
    unfold lastOfJson at h
    split at h
    next => cases h; rfl
    next =>
      obtain ⟨i, hi, rfl⟩ := map_eq_ok_iff.1 h
      exact ofJson_eq_ok_iff.1 hi
  · intro h
    cases last with
    | none => cases h; rfl
    | some i =>
      have hread : lastOfJson j = (ofJson j).map some := by
        cases j with
        | null => cases h
        | _ => rfl
      rw [hread, ofJson_eq_ok_iff.2 h]
      rfl

theorem uncounted_lastOfJson (j : Json) : Uncounted (lastOfJson j) := by
  unfold lastOfJson
  split
  · exact uncounted_ok none
  · exact (uncounted_ofJson _).map some

end Instruction

namespace Registers

def fields : List (RecordField Registers) :=
  [.required "gp" fun r j => j = .ofBytes r.gp.toList,
    .required "pc" fun r j => j = .int r.pc.toNat,
    .required "fl" fun r => r.fl.Form]

def Form : Registers → Json → Prop :=
  IsRecord fields

theorem gpOfJson_eq_ok_iff {j : Json} {gp : Vector UInt8 8} :
    gpOfJson j = .ok gp ↔ j = .ofBytes gp.toList := by
  constructor
  · intro h
    obtain ⟨bs, hbs, h⟩ := bind_eq_ok_iff.1 h
    split at h <;> cases h
    exact bytes_eq_ok_iff.1 hbs
  · rintro rfl
    exact gpOfJson_ofBytes gp

theorem uncounted_gpOfJson (j : Json) : Uncounted (gpOfJson j) := by
  refine (uncounted_bytes j).bind fun bs => ?_
  split
  · exact uncounted_ok _
  · exact uncounted_malformed

theorem ofJson_eq_ok_iff {j : Json} {r : Registers} : ofJson j = .ok r ↔ r.Form j := by
  constructor
  · intro h
    unfold ofJson at h
    split at h
    next given =>
      simp only [bind_eq_ok_iff] at h
      obtain ⟨fl?, hfl, gp?, hgp, pc?, hpc, h⟩ := h
      split at h <;> cases h
      obtain ⟨u, hu, hfl⟩ := mapM_eq_ok_some_iff.1 hfl
      obtain ⟨v, hv, hgp⟩ := mapM_eq_ok_some_iff.1 hgp
      obtain ⟨w, hw, hpc⟩ := mapM_eq_ok_some_iff.1 hpc
      simp only [Form, IsRecord, fields, List.forall_mem_cons, RecordField.given_required_iff]
      exact ⟨⟨v, hv, gpOfJson_eq_ok_iff.1 hgp⟩, ⟨w, hw, byte_eq_ok_iff.1 hpc⟩,
        ⟨u, hu, Flags.ofJson_eq_ok_iff.1 hfl⟩, nofun⟩
    next gp pc fl =>
      simp only [bind_eq_ok_iff] at h
      obtain ⟨gp', hgp, pc', hpc, fl', hfl, h⟩ := h
      cases h
      exact .cons (gpOfJson_eq_ok_iff.1 hgp) <| .cons (byte_eq_ok_iff.1 hpc) <|
        .cons (Flags.ofJson_eq_ok_iff.1 hfl) .nil
    next => cases h
  · intro h
    cases j with
    | obj given =>
      simp only [Form, IsRecord, fields, List.forall_mem_cons, RecordField.given_required_iff] at h
      obtain ⟨⟨v, hv, hgp⟩, ⟨w, hw, hpc⟩, ⟨u, hu, hfl⟩, -⟩ := h
      simp only [ofJson, bind_eq_ok_iff]
      exact ⟨_, mapM_eq_ok_some_iff.2 ⟨u, hu, Flags.ofJson_eq_ok_iff.2 hfl⟩,
        _, mapM_eq_ok_some_iff.2 ⟨v, hv, gpOfJson_eq_ok_iff.2 hgp⟩,
        _, mapM_eq_ok_some_iff.2 ⟨w, hw, byte_eq_ok_iff.2 hpc⟩, rfl⟩
    | arr items =>
      obtain - | ⟨hgp, - | ⟨hpc, - | ⟨hfl, ⟨⟩⟩⟩⟩ := h
      simp only [ofJson, bind_eq_ok_iff]
      exact ⟨_, gpOfJson_eq_ok_iff.2 hgp, _, byte_eq_ok_iff.2 hpc, _,
        Flags.ofJson_eq_ok_iff.2 hfl, rfl⟩
    | _ => cases h

theorem uncounted_ofJson (j : Json) : Uncounted (ofJson j) := by
  unfold ofJson
  split
  · refine (uncounted_mapM Flags.uncounted_ofJson).bind fun fl? => ?_
    refine (uncounted_mapM uncounted_gpOfJson).bind fun gp? => ?_
    refine (uncounted_mapM uncounted_byte).bind fun pc? => ?_
    split
    · exact uncounted_ok _
    · exact uncounted_malformed
  · exact (uncounted_gpOfJson _).bind fun gp => (uncounted_byte _).bind fun pc =>
      (Flags.uncounted_ofJson _).bind fun fl => uncounted_ok _
  · exact uncounted_malformed

end Registers

end LS8
