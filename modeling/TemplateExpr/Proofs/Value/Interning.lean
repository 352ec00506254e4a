import TemplateExpr.Value.Pool
import TemplateExpr.Proofs.Decimal.NormalForm
import Mathlib.Data.Finset.Card
/-!
What a pool shares. All values that it hands out are the ones it was given; two of them share an entry exactly if they
are equal texts or equal numbers, and the pool has one entry for each of these. Logic values and dates stay outside.
Where values are copies in memory, sharing an entry is sharing a copy.
-/
namespace TemplateExpr

namespace Value

def text? : Value → Option String
  | text s => some s
  | _ => none

def number? : Value → Option ℚ
  | number n => some n.toRat
  | _ => none

/-- The value is not a number, or one in its normal form. -/
def IsNormal (v : Value) : Prop := ∀ n, v = number n → n.IsNormal

/-- Equal texts, equal numbers or the same logic value, but not dates. -/
inductive Alike : Value → Value → Prop where
  | text (s : String) : Alike (text s) (text s)
  | number {m n : Decimal} (equal : m.toRat = n.toRat) : Alike (number m) (number n)
  | logic (b : Bool) : Alike (logic b) (logic b)

theorem alike_iff {v w : Value} (hv : v.IsNormal) (hw : w.IsNormal) : v.Alike w ↔ v = w ∧ v.kind ≠ .date := by
  constructor
  · intro alike
    cases alike with
    | text s => exact ⟨rfl, Kind.noConfusion⟩
    | number equal => exact ⟨by rw [Decimal.toRat_injective (hv _ rfl) (hw _ rfl) equal], Kind.noConfusion⟩
    | logic b => exact ⟨rfl, Kind.noConfusion⟩
  · rintro ⟨rfl, timeless⟩
    cases v with
    | text s => exact .text s
    | number n => exact .number rfl
    | logic b => exact .logic b
    | date t => exact absurd rfl timeless

theorem number?_inj {v w : Value} (hv : v.IsNormal) (hw : w.IsNormal) {x : ℚ} (first : v.number? = some x)
    (second : w.number? = some x) : v = w := by
  cases v with
  | number m =>
    cases w with
    | number n =>
      have equal : m.toRat = n.toRat := Option.some.inj (first.trans second.symm)
      rw [Decimal.toRat_injective (hv m rfl) (hw n rfl) equal]
    | text _ | logic _ | date _ => cases second
  | text _ | logic _ | date _ => cases first

theorem text?_inj {v w : Value} {s : String} (first : v.text? = some s) (second : w.text? = some s) : v = w := by
  cases v with
  | text a =>
    cases w with
    | text b => rw [Option.some.inj (first.trans second.symm)]
    | number _ | logic _ | date _ => cases second
  | number _ | logic _ | date _ => cases first

end Value

namespace Pool

def internAll (pool : Pool) : List Value → List Interned × Pool
  | [] => ([], pool)
  | v :: rest =>
    let (first, held) := pool.intern v
    let (others, last) := held.internAll rest
    (first :: others, last)

/-- The three ways to hand out a value: beside the pool, from an entry, and from a new entry. -/
inductive Interns (pool : Pool) (v : Value) : Interned × Pool → Prop where
  | beside (loose : holds v.kind = false) : Interns pool v (⟨v, none⟩, pool)
  | found {i : Nat} (kept : holds v.kind = true) (here : pool.entries[i]? = some v) : Interns pool v (⟨v, some i⟩, pool)
  | added (kept : holds v.kind = true) (new : v ∉ pool.entries) :
      Interns pool v (⟨v, some pool.entries.length⟩, ⟨pool.entries ++ [v]⟩)

theorem interns (pool : Pool) (v : Value) : pool.Interns v (pool.intern v) := by
  unfold intern
  split
  · rename_i kept
    split
    · rename_i i found
      obtain ⟨inside, same, _⟩ := List.findIdx?_eq_some_iff_getElem.mp found
      have here : pool.entries[i]? = some v := by rw [List.getElem?_eq_getElem inside, eq_of_beq same]
      rw [List.getD_eq_getElem?_getD, here]
      exact .found kept here
    · rename_i absent
      refine .added kept fun mem => ?_
      have other := List.findIdx?_eq_none_iff.mp absent v mem
      rw [beq_self_eq_true] at other
      cases other
  · rename_i loose
    exact .beside (Bool.eq_false_iff.mpr loose)

/-- No value has two entries, and all are of kinds that are held. -/
structure WellFormed (pool : Pool) : Prop where
  nodup : pool.entries.Nodup
  kept : ∀ v ∈ pool.entries, holds v.kind = true

inductive Gives (pool : Pool) : Interned → Prop where
  | beside {v : Value} (loose : holds v.kind = false) : Gives pool ⟨v, none⟩
  | entry {v : Value} {i : Nat} (here : pool.entries[i]? = some v) : Gives pool ⟨v, some i⟩

theorem Gives.mono {pool later : Pool} (grown : pool.entries <+: later.entries) {a : Interned} (gives : pool.Gives a) :
    later.Gives a := by
  cases gives with
  | beside loose => exact .beside loose
  | entry here =>
    obtain ⟨inside, same⟩ := List.getElem?_eq_some_iff.mp here
    exact .entry (same ▸ List.prefix_iff_getElem?.mp grown _ inside)

theorem wellFormed_empty : WellFormed {} := ⟨List.nodup_nil, fun _ mem => nomatch mem⟩

section Step

variable (pool : Pool) (v : Value)

theorem gives_intern : (pool.intern v).2.Gives (pool.intern v).1 := by
  have how := pool.interns v
  generalize pool.intern v = out at how ⊢
  cases how with
  | beside loose => exact .beside loose
  | found kept here => exact .entry here
  | added kept new => exact .entry List.getElem?_concat_length

theorem wellFormed_intern (formed : pool.WellFormed) : (pool.intern v).2.WellFormed := by
  have how := pool.interns v
  generalize pool.intern v = out at how ⊢
  cases how with
  | beside loose => exact formed
  | found kept here => exact formed
  | added kept new =>
    constructor
    · refine List.nodup_append.mpr ⟨formed.nodup, List.nodup_singleton v, ?_⟩
      rintro w mem _ last rfl
      exact new (List.mem_singleton.mp last ▸ mem)
    · intro w mem
      rcases List.mem_append.mp mem with old | last
      · exact formed.kept w old
      · rwa [List.mem_singleton.mp last]

theorem mem_entries_intern (w : Value) :
    w ∈ (pool.intern v).2.entries ↔ w ∈ pool.entries ∨ w = v ∧ holds v.kind = true := by
  have how := pool.interns v
  generalize pool.intern v = out at how ⊢
  cases how with
  | beside loose => simp [loose]
  | found kept here =>
    refine ⟨Or.inl, ?_⟩
    rintro (mem | ⟨rfl, _⟩)
    · exact mem
    · exact List.mem_of_getElem? here
  | added kept new => simp [kept]

end Step

theorem values_internAll (pool : Pool) (values : List Value) : (pool.internAll values).1.map (·.value) = values := by
  induction values generalizing pool with
  | nil => rfl
  | cons v rest ih => rw [internAll, List.map_cons, intern_value, ih]

theorem entries_internAll (pool : Pool) (values : List Value) : pool.entries <+: (pool.internAll values).2.entries := by
  induction values generalizing pool with
  | nil => exact List.prefix_refl _
  | cons v rest ih => exact (entries_intern pool v).trans (ih _)

theorem wellFormed_internAll {pool : Pool} (formed : pool.WellFormed) (values : List Value) :
    (pool.internAll values).2.WellFormed := by
  induction values generalizing pool with
  | nil => exact formed
  | cons v rest ih => exact ih (wellFormed_intern pool v formed)

theorem gives_internAll (pool : Pool) (values : List Value) {a : Interned} (mem : a ∈ (pool.internAll values).1) :
    (pool.internAll values).2.Gives a := by
  induction values generalizing pool with
  | nil => cases mem
  | cons v rest ih =>
    rcases List.mem_cons.mp mem with rfl | later
    · exact (gives_intern pool v).mono (entries_internAll _ rest)
    · exact ih _ later

theorem mem_entries_internAll (pool : Pool) (values : List Value) (w : Value) :
    w ∈ (pool.internAll values).2.entries ↔ w ∈ pool.entries ∨ w ∈ values ∧ holds w.kind = true := by
  induction values generalizing pool with
  | nil => simp [internAll]
  | cons v rest ih =>
    rw [internAll]
    dsimp only
    rw [ih, mem_entries_intern, List.mem_cons]
    constructor
    · rintro ((old | ⟨rfl, kept⟩) | ⟨later, kept⟩)
      · exact .inl old
      · exact .inr ⟨.inl rfl, kept⟩
      · exact .inr ⟨.inr later, kept⟩
    · rintro (old | ⟨rfl | later, kept⟩)
      · exact .inl (.inl old)
      · exact .inl (.inr ⟨rfl, kept⟩)
      · exact .inr ⟨later, kept⟩

theorem same_iff {pool : Pool} (formed : pool.WellFormed) {a b : Interned} (first : pool.Gives a)
    (second : pool.Gives b) : a.same b = true ↔ a.value = b.value ∧ a.value.kind ≠ .date := by
  cases first with
  | @entry v i here =>
    have kept := formed.kept v (List.mem_of_getElem? here)
    cases second with
    | @entry w j there =>
      have inside := (List.getElem?_eq_some_iff.mp here).1
      calc (i == j) = true ↔ pool.entries[i]? = pool.entries[j]? := by
            rw [beq_iff_eq, List.getElem?_inj inside formed.nodup]
        _ ↔ v = w := by rw [here, there, Option.some_inj]
        _ ↔ v = w ∧ v.kind ≠ .date := by
            refine (and_iff_left fun date => ?_).symm
            rw [date] at kept
            cases kept
    | @beside w loose =>
      refine ⟨nofun, fun ⟨equal, _⟩ => ?_⟩
      rw [show v = w from equal, loose] at kept
      cases kept
  | @beside v loose =>
    cases second with
    | @entry w j there =>
      have kept := formed.kept w (List.mem_of_getElem? there)
      refine ⟨nofun, fun ⟨equal, _⟩ => ?_⟩
      rw [← show v = w from equal, loose] at kept
      cases kept
    | @beside w _ =>
      cases v with
      | text _ | number _ => cases loose
      | logic x => cases w <;> simp [Interned.same, Value.kind]
      | date t => simp [Interned.same, Value.kind]

theorem same_iff_alike {values : List Value} (normal : ∀ v ∈ values, v.IsNormal) {a b : Interned}
    (first : a ∈ (internAll {} values).1) (second : b ∈ (internAll {} values).1) :
    a.same b = true ↔ a.value.Alike b.value := by
  have given {a : Interned} (mem : a ∈ (internAll {} values).1) : a.value.IsNormal := by
    refine normal _ ?_
    rw [← values_internAll {} values]
    exact List.mem_map_of_mem mem
  rw [same_iff (wellFormed_internAll wellFormed_empty values) (gives_internAll {} values first)
    (gives_internAll {} values second), Value.alike_iff (given first) (given second)]

theorem length_eq {entries : List Value} (kept : ∀ v ∈ entries, holds v.kind = true) :
    entries.length = (entries.filterMap Value.text?).length + (entries.filterMap Value.number?).length := by
  induction entries with
  | nil => rfl
  | cons v entries ih =>
    have rest := ih fun w mem => kept w (List.mem_cons_of_mem v mem)
    cases v with
    | text s =>
      simp only [List.filterMap_cons, Value.text?, Value.number?, List.length_cons, rest]
      omega
    | number n =>
      simp only [List.filterMap_cons, Value.text?, Value.number?, List.length_cons, rest]
      omega
    | logic _ | date _ => cases kept _ List.mem_cons_self

theorem card_views {κ : Type} [DecidableEq κ] {view : Value → Option κ} {values : List Value}
    (kept : ∀ v x, view v = some x → holds v.kind = true)
    (apart : ∀ v ∈ values, ∀ w ∈ values, ∀ x, view v = some x → view w = some x → v = w) :
    (values.filterMap view).toFinset.card = ((internAll {} values).2.entries.filterMap view).length := by
  have members (w : Value) : w ∈ (internAll {} values).2.entries ↔ w ∈ values ∧ holds w.kind = true := by
    rw [mem_entries_internAll]
    exact or_iff_right List.not_mem_nil
  have same : (values.filterMap view).toFinset = ((internAll {} values).2.entries.filterMap view).toFinset := by
    refine List.toFinset.ext fun x => ?_
    rw [List.mem_filterMap, List.mem_filterMap]
    refine exists_congr fun v => and_congr_left fun seen => ?_
    rw [members, and_iff_left (kept v x seen)]
  have distinct : ((internAll {} values).2.entries.filterMap view).Nodup := by
    refine List.pairwise_filterMap.mpr ((wellFormed_internAll wellFormed_empty values).nodup.imp_of_mem ?_)
    rintro v w inside inside' different x seen _ seen' rfl
    exact different (apart v ((members v).mp inside).1 w ((members w).mp inside').1 x seen seen')
  rw [same, List.toFinset_card_of_nodup distinct]

theorem size_internAll {values : List Value} (normal : ∀ v ∈ values, v.IsNormal) :
    (internAll {} values).2.size =
      (values.filterMap Value.text?).toFinset.card + (values.filterMap Value.number?).toFinset.card := by
  have texts : ∀ v s, Value.text? v = some s → holds v.kind = true := by
    intro v s seen
    cases v with
    | text _ => rfl
    | number _ | logic _ | date _ => cases seen
  have numbers : ∀ v x, Value.number? v = some x → holds v.kind = true := by
    intro v x seen
    cases v with
    | number _ => rfl
    | text _ | logic _ | date _ => cases seen
  rw [card_views texts fun _ _ _ _ _ => Value.text?_inj,
    card_views numbers fun v mem w mem' _ => Value.number?_inj (normal v mem) (normal w mem')]
  exact length_eq (wellFormed_internAll wellFormed_empty values).kept

section Places

-- What is at each place in memory. Any number of copies of a value may be there already.
variable (memory : Nat → Value)

/-- Hands out the pool's own copy of the value at a place; the pool keeps the copy given if it has none. -/
def internPlace (held : List Nat) (place : Nat) : Nat × List Nat :=
  if holds (memory place).kind then
    match held.findIdx? (memory · == memory place) with
    | some i => (held.getD i place, held)
    | none => (place, held ++ [place])
  else (place, held)

def internPlaces (held : List Nat) : List Nat → List Nat × List Nat
  | [] => ([], held)
  | place :: rest =>
    let (first, held) := internPlace memory held place
    let (others, last) := internPlaces held rest
    (first :: others, last)

/-- Whether two copies are one. Logic values are not kept at places of their own. -/
def samePlace (p q : Nat) : Bool :=
  match memory p, memory q with
  | .logic x, .logic y => x == y
  | _, _ => p == q

/-- What may be handed out for the copy at a place: a copy held if the kind is held, and that copy itself otherwise. -/
inductive Own (held : List Nat) (place : Nat) : Nat → Prop where
  | beside (loose : holds (memory place).kind = false) : Own held place place
  | held {own : Nat} (kept : holds (memory place).kind = true) (mem : own ∈ held)
      (equal : memory own = memory place) : Own held place own

variable {memory}

theorem Own.mono {held later : List Nat} (grown : held <+: later) {place own : Nat} (owns : Own memory held place own) :
    Own memory later place own := by
  cases owns with
  | beside loose => exact .beside loose
  | held kept mem equal => exact .held kept (grown.subset mem) equal

theorem Own.memory_eq {held : List Nat} {place own : Nat} (owns : Own memory held place own) :
    memory own = memory place := by
  cases owns with
  | beside loose => rfl
  | held kept mem equal => exact equal

theorem Own.mem_of_kept {held : List Nat} {place own : Nat} (owns : Own memory held place own)
    (kept : holds (memory place).kind = true) : own ∈ held := by
  cases owns with
  | beside loose =>
    rw [kept] at loose
    cases loose
  | held _ mem _ => exact mem

theorem Own.eq_of_date {held : List Nat} {place own : Nat} (owns : Own memory held place own)
    (date : (memory place).kind = .date) : own = place := by
  cases owns with
  | beside _ => rfl
  | held kept _ _ =>
    rw [date] at kept
    cases kept

theorem own_internPlace {pool : Pool} {held : List Nat} (mirrors : pool.entries = held.map memory) (place : Nat) :
    (pool.intern (memory place)).2.entries = (internPlace memory held place).2.map memory ∧
      held <+: (internPlace memory held place).2 ∧
      Own memory (internPlace memory held place).2 place (internPlace memory held place).1 := by
  have search : pool.entries.findIdx? (· == memory place) = held.findIdx? (memory · == memory place) := by
    rw [mirrors, List.findIdx?_map]
    rfl
  unfold intern internPlace
  rw [search]
  split
  · rename_i kept
    cases found : held.findIdx? (memory · == memory place) with
    | none =>
      refine ⟨by rw [mirrors, List.map_append, List.map_singleton], List.prefix_append _ _, ?_⟩
      exact .held kept (List.mem_append_right held (List.mem_singleton_self place)) rfl
    | some i =>
      obtain ⟨inside, same, _⟩ := List.findIdx?_eq_some_iff_getElem.mp found
      have own : held.getD i place = held[i] := by
        rw [List.getD_eq_getElem?_getD, List.getElem?_eq_getElem inside, Option.getD_some]
      refine ⟨mirrors, List.prefix_refl _, ?_⟩
      dsimp only
      rw [own]
      exact .held kept (List.getElem_mem inside) (eq_of_beq same)
  · rename_i loose
    exact ⟨mirrors, List.prefix_refl _, .beside (Bool.eq_false_iff.mpr loose)⟩

theorem held_internPlaces {pool : Pool} {held : List Nat} (mirrors : pool.entries = held.map memory)
    (places : List Nat) :
    (pool.internAll (places.map memory)).2.entries = (internPlaces memory held places).2.map memory ∧
      held <+: (internPlaces memory held places).2 := by
  induction places generalizing pool held with
  | nil => exact ⟨mirrors, List.prefix_refl _⟩
  | cons place rest ih =>
    obtain ⟨mirrors', grown, _⟩ := own_internPlace mirrors place
    obtain ⟨whole, grown'⟩ := ih mirrors'
    exact ⟨whole, grown.trans grown'⟩

theorem memory_internPlaces {pool : Pool} {held : List Nat} (mirrors : pool.entries = held.map memory)
    (places : List Nat) : (internPlaces memory held places).1.map memory = places.map memory := by
  induction places generalizing pool held with
  | nil => rfl
  | cons place rest ih =>
    obtain ⟨mirrors', _, owns⟩ := own_internPlace mirrors place
    rw [internPlaces, List.map_cons, List.map_cons, owns.memory_eq, ih mirrors']

theorem own_internPlaces {pool : Pool} {held : List Nat} (mirrors : pool.entries = held.map memory)
    {places : List Nat} {i place own : Nat} (given : places[i]? = some place)
    (copy : (internPlaces memory held places).1[i]? = some own) :
    Own memory (internPlaces memory held places).2 place own := by
  induction places generalizing pool held i with
  | nil => cases given
  | cons first rest ih =>
    obtain ⟨mirrors', _, owns⟩ := own_internPlace mirrors first
    cases i with
    | zero =>
      cases given
      cases copy
      exact owns.mono (held_internPlaces mirrors' rest).2
    | succ i => exact ih mirrors' given copy

theorem samePlace_self (p : Nat) : samePlace memory p p = true := by
  unfold samePlace
  split
  · rename_i x y first second
    rw [first] at second
    cases second
    exact beq_self_eq_true x
  · exact beq_self_eq_true p

theorem samePlace_of_logic {p q : Nat} {b : Bool} (first : memory p = .logic b) (second : memory q = .logic b) :
    samePlace memory p q = true := by
  unfold samePlace
  rw [first, second]
  exact beq_self_eq_true b

theorem samePlace_cases {p q : Nat} (same : samePlace memory p q = true) :
    memory p = memory q ∧ ((memory p).kind = .logic ∨ p = q) := by
  unfold samePlace at same
  split at same
  · rename_i x y first second
    rw [first, second, eq_of_beq same]
    exact ⟨rfl, .inl rfl⟩
  · rw [eq_of_beq same]
    exact ⟨rfl, .inr rfl⟩

theorem samePlace_iff {held : List Nat} (distinct : (held.map memory).Nodup) {p q own own' : Nat}
    (first : Own memory held p own) (second : Own memory held q own') :
    samePlace memory own own' = true ↔
      memory p = memory q ∧ (memory p).kind ≠ .date ∨ (memory p).kind = .date ∧ p = q := by
  constructor
  · intro same
    obtain ⟨equal, one⟩ := samePlace_cases same
    rw [first.memory_eq, second.memory_eq] at equal
    by_cases date : (memory p).kind = .date
    · refine .inr ⟨date, ?_⟩
      rw [first.memory_eq, date] at one
      rw [← first.eq_of_date date, ← second.eq_of_date (equal ▸ date)]
      exact one.resolve_left Kind.noConfusion
    · exact .inl ⟨equal, date⟩
  · rintro (⟨equal, timeless⟩ | ⟨date, rfl⟩)
    · by_cases logic : (memory p).kind = .logic
      · obtain ⟨b, here⟩ : ∃ b, memory p = .logic b := by
          cases value : memory p with
          | logic b => exact ⟨b, rfl⟩
          | text _ | number _ | date _ => rw [value] at logic; cases logic
        exact samePlace_of_logic (first.memory_eq.trans here) (second.memory_eq.trans (equal ▸ here))
      · have kept : holds (memory p).kind = true := by
          cases kind : (memory p).kind with
          | text | number => rfl
          | logic => exact absurd kind logic
          | date => exact absurd kind timeless
        have same : memory own = memory own' := by rw [first.memory_eq, second.memory_eq, equal]
        rw [List.inj_on_of_nodup_map distinct (first.mem_of_kept kept) (second.mem_of_kept (equal ▸ kept)) same]
        exact samePlace_self own'
    · rw [first.eq_of_date date, second.eq_of_date date]
      exact samePlace_self p

end Places

/-- A pool hands out the values it is given. Two of them are one and the same exactly if they are equal texts, equal
numbers, however they are written, or the same logic value, and at any time the pool has an entry for every text and
for every number so far. It does so too with values that are copies in memory, of which there may be others before:
those handed out are one copy in these cases, and if one copy of a date was given twice. -/
theorem interning_shares (values : List Value) (normal : ∀ v ∈ values, v.IsNormal) :
    (internAll {} values).1.map (·.value) = values ∧
      (∀ a ∈ (internAll {} values).1, ∀ b ∈ (internAll {} values).1, a.same b = true ↔ a.value.Alike b.value) ∧
      (∀ done, done <+: values → (internAll {} done).2.size =
        (done.filterMap Value.text?).toFinset.card + (done.filterMap Value.number?).toFinset.card) ∧
      ∀ (memory : Nat → Value) (places : List Nat), places.map memory = values →
        (internPlaces memory [] places).2.map memory = (internAll {} values).2.entries ∧
        (internPlaces memory [] places).1.map memory = values ∧
        ∀ (i j p q own own' : Nat), places[i]? = some p → places[j]? = some q →
          (internPlaces memory [] places).1[i]? = some own → (internPlaces memory [] places).1[j]? = some own' →
          (samePlace memory own own' = true ↔
            (memory p).Alike (memory q) ∨ (memory p).kind = .date ∧ p = q) := by
  refine ⟨values_internAll {} values, fun a mem b mem' => same_iff_alike normal mem mem', ?_, ?_⟩
  · intro done before
    exact size_internAll fun v mem => normal v (before.subset mem)
  · rintro memory places rfl
    have start : entries {} = ([] : List Nat).map memory := rfl
    obtain ⟨mirrors, _⟩ := held_internPlaces start places
    have distinct := (wellFormed_internAll wellFormed_empty (places.map memory)).nodup
    rw [mirrors] at distinct
    refine ⟨mirrors.symm, memory_internPlaces start places, ?_⟩
    intro i j p q own own' here there copy copy'
    have normal_at {i p : Nat} (here : places[i]? = some p) : (memory p).IsNormal :=
      normal _ (List.mem_map_of_mem (List.mem_of_getElem? here))
    rw [samePlace_iff distinct (own_internPlaces start here copy) (own_internPlaces start there copy'),
      Value.alike_iff (normal_at here) (normal_at there)]

theorem interning_shares_twins :
    let memory : Nat → Value := fun place =>
      [.text "", .number ⟨15, 1⟩, .number ⟨15, 1⟩, .date .epoch, .date .epoch].getD place (.text "")
    let places := [0, 1, 2, 3, 4, 3, 5]
    (∀ v ∈ places.map memory, v.IsNormal) ∧ (internPlaces memory [] places).1 = [0, 1, 1, 3, 4, 3, 0] ∧
      (memory 1).Alike (memory 2) ∧ ¬ (memory 3).Alike (memory 4) ∧ (memory 0).Alike (memory 5) := by
  intro memory places
  have normal : ∀ v ∈ places.map memory, v.IsNormal := by
    simp only [places, memory, List.map_cons, List.map_nil, List.forall_mem_cons, List.not_mem_nil, IsEmpty.forall_iff,
      implies_true, and_true]
    have half : Value.IsNormal (.number ⟨15, 1⟩) := by
      rintro n ⟨⟩
      exact ⟨by decide, by decide, by decide, by decide⟩
    exact ⟨nofun, half, half, nofun, nofun, nofun, nofun⟩
  have copies : (internPlaces memory [] places).1 = [0, 1, 1, 3, 4, 3, 0] := by decide
  obtain ⟨-, -, -, shared⟩ := interning_shares (places.map memory) normal
  obtain ⟨-, -, one⟩ := shared memory places rfl
  rw [copies] at one
  have numbers := one 1 2 1 2 1 1 rfl rfl rfl rfl
  have dates := one 3 4 3 4 3 4 rfl rfl rfl rfl
  have texts := one 0 6 0 5 0 0 rfl rfl rfl rfl
  refine ⟨normal, copies, ?_, ?_, ?_⟩
  · exact (numbers.mp (samePlace_self 1)).resolve_right nofun
  · intro alike
    cases dates.mpr (.inl alike)
  · exact (texts.mp (samePlace_self 0)).resolve_right nofun

end Pool

end TemplateExpr
