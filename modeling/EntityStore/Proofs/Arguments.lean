import EntityStore.Proofs.Handles
import EntityStore.Proofs.Staging

set_option autoImplicit false

namespace EntityStore

/-- What comes of reading some data, one after the other: an item for each of them, or an error because of one for
which there is no item. -/
inductive ReadsAll {α : Type} (Reads : Datum → α → Prop) (arguments : List Datum) :
    Except Error (List α) → Prop where
  | read (items : List α) (each : List.Forall₂ Reads arguments items) : ReadsAll Reads arguments (.ok items)
  | unfit (e : Error) (kind : e.kind? = some .invalidArgument) (d : Datum) (member : d ∈ arguments)
      (unfit : ∀ item, ¬ Reads d item) : ReadsAll Reads arguments (.error e)

namespace ReadsAll

variable {α β : Type} {Reads : Datum → α → Prop} {Further : Datum → β → Prop} {arguments : List Datum}

/-- A reader is sound if it reads the first datum or turns it away. -/
theorem of_reader (reader : List Datum → Except Error (List α)) (nil : reader [] = .ok [])
    (cons : ∀ d rest, (∃ item, Reads d item ∧ reader (d :: rest) = (item :: ·) <$> reader rest) ∨
      ∃ e, reader (d :: rest) = .error e ∧ e.kind? = some .invalidArgument ∧ ∀ item, ¬ Reads d item)
    (arguments : List Datum) : ReadsAll Reads arguments (reader arguments) := by
  induction arguments with
  | nil => exact nil ▸ .read [] .nil
  | cons d rest ih =>
      rcases cons d rest with ⟨item, fits, goesOn⟩ | ⟨e, stops, kind, unfit⟩
      · rw [goesOn]
        generalize reader rest = result at ih
        cases ih with
        | read items each => exact .read (item :: items) (.cons fits each)
        | unfit e kind other member unfit => exact .unfit e kind other (List.mem_cons_of_mem d member) unfit
      · exact stops ▸ .unfit e kind d List.mem_cons_self unfit

/-- What is made of the items. -/
theorem map {result : Except Error (List α)} (reads : ReadsAll Reads arguments result) (make : α → β)
    (makes : ∀ d made, Further d made ↔ ∃ item, Reads d item ∧ make item = made) :
    ReadsAll Further arguments (List.map make <$> result) := by
  cases reads with
  | read items each =>
      apply ReadsAll.read
      rw [List.forall₂_map_right_iff]
      exact each.imp fun d item fits => (makes d (make item)).mpr ⟨item, fits, rfl⟩
  | unfit e kind d member unfit =>
      refine .unfit e kind d member fun made fits => ?_
      obtain ⟨item, read, -⟩ := (makes d made).mp fits
      exact unfit item read

end ReadsAll

/-- An entity with a complete key, and what is stored for it: a draft becomes an ordinary entity. -/
inductive AnyEntity.IsKeyed : AnyEntity → Entity → Prop where
  | whole (e : Entity) : IsKeyed (.keyed e) e
  | named (k : Key) (properties : Properties) : IsKeyed (.draft (.complete k) properties) ⟨.stored, k, properties⟩

theorem AnyEntity.keyed?_eq_some_iff {e : AnyEntity} {keyed : Entity} : e.keyed? = some keyed ↔ e.IsKeyed keyed := by
  constructor
  · intro found
    rcases e with ⟨k | space, properties⟩ | e
    · cases found
    · cases found
      exact .named _ _
    · cases found
      exact .whole _
  · intro keyed
    cases keyed <;> rfl

theorem reads_anyEntities (operation : String) (arguments : List Datum) :
    ReadsAll (fun d e => d = .entity e) arguments (anyEntities operation arguments) := by
  apply ReadsAll.of_reader (anyEntities operation) rfl
  intro d rest
  cases d with
  | entity e => exact Or.inl ⟨e, rfl, rfl⟩
  | _ => exact Or.inr ⟨_, rfl, rfl, fun _ => nofun⟩

theorem reads_completeKeys (operation : String) (arguments : List Datum) :
    ReadsAll (fun d k => d = .key (.complete k)) arguments (completeKeys operation arguments) := by
  apply ReadsAll.of_reader (completeKeys operation) rfl
  intro d rest
  cases d with
  | key k =>
      cases k with
      | complete k => exact Or.inl ⟨k, rfl, rfl⟩
      | incomplete space => exact Or.inr ⟨_, rfl, rfl, fun _ => nofun⟩
  | _ => exact Or.inr ⟨_, rfl, rfl, fun _ => nofun⟩

theorem reads_keyedEntities (operation : String) (arguments : List Datum) :
    ReadsAll (fun d keyed => ∃ e, d = .entity e ∧ e.IsKeyed keyed) arguments
      (keyedEntities operation arguments) := by
  apply ReadsAll.of_reader (keyedEntities operation) rfl
  intro d rest
  cases d with
  | entity e =>
      rw [keyedEntities]
      cases found : e.keyed? with
      | some keyed => exact Or.inl ⟨keyed, ⟨e, rfl, AnyEntity.keyed?_eq_some_iff.mp found⟩, rfl⟩
      | none =>
          refine Or.inr ⟨_, rfl, rfl, ?_⟩
          rintro keyed ⟨_, same, own⟩
          cases same
          rw [AnyEntity.keyed?_eq_some_iff.mpr own] at found
          cases found
  | _ => exact Or.inr ⟨_, rfl, rfl, fun _ ⟨_, same, _⟩ => nomatch same⟩

/-- The mutation that a call stages for an argument: any entity can be added, an entity with a complete key can be
put or updated, and a complete key can be deleted. -/
inductive Mutation.StagedFor : MutationKind → Datum → Mutation → Prop where
  | added (e : AnyEntity) : StagedFor .add (.entity e) ⟨.add, .entity e⟩
  | put {e : AnyEntity} {keyed : Entity} (own : e.IsKeyed keyed) :
      StagedFor .put (.entity e) ⟨.put, .entity (.keyed keyed)⟩
  | updated {e : AnyEntity} {keyed : Entity} (own : e.IsKeyed keyed) :
      StagedFor .update (.entity e) ⟨.update, .entity (.keyed keyed)⟩
  | deleted (k : Key) : StagedFor .delete (.key (.complete k)) ⟨.delete, .key (.complete k)⟩

/-- Staging reads each argument for itself. -/
theorem Mutation.reads_stage (kind : MutationKind) (arguments : List Datum) :
    ReadsAll (StagedFor kind) arguments (stage kind arguments) := by
  cases kind with
  | add =>
      apply (reads_anyEntities "add" arguments).map
      intro d m
      constructor
      · rintro ⟨⟩
        exact ⟨_, rfl, rfl⟩
      · rintro ⟨e, rfl, rfl⟩
        exact .added e
  | put =>
      apply (reads_keyedEntities "put" arguments).map
      intro d m
      constructor
      · rintro (_ | own)
        exact ⟨_, ⟨_, rfl, own⟩, rfl⟩
      · rintro ⟨keyed, ⟨e, rfl, own⟩, rfl⟩
        exact .put own
  | update =>
      apply (reads_keyedEntities "update" arguments).map
      intro d m
      constructor
      · rintro (_ | _ | own)
        exact ⟨_, ⟨_, rfl, own⟩, rfl⟩
      · rintro ⟨keyed, ⟨e, rfl, own⟩, rfl⟩
        exact .updated own
  | delete =>
      apply (reads_completeKeys "delete" arguments).map
      intro d m
      constructor
      · rintro ⟨⟩
        exact ⟨_, rfl, rfl⟩
      · rintro ⟨k, rfl, rfl⟩
        exact .deleted k

end EntityStore
