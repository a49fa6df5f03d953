import EntityStore.Proofs.Semantics

set_option autoImplicit false

namespace EntityStore

namespace Progress

theorem filed_of_apply {reserved : List Key} {p q : Progress} {m : Mutation} (filed : Filed p.entities)
    (applied : p.apply reserved m = .ok q) : Filed q.entities := by
  unfold apply at applied
  split at applied
  · cases applied
    exact filed
  · next k _ _ =>
      cases applied
      exact filed.remove k
  · split at applied
    · cases applied
    · cases applied
      exact filed.put _
  · cases applied
  · cases applied
  · split at applied
    · cases applied
    · cases applied
      exact filed.put _
  · split at applied
    · cases applied
      exact filed.put _
    · cases applied
  · cases applied
    exact filed.put _

theorem filed_of_applyAll (reserved : List Key) (mutations : List Mutation) {p : Progress}
    (filed : Filed p.entities) : Filed (applyAll reserved p mutations).1.entities := by
  induction mutations generalizing p with
  | nil => exact filed
  | cons m rest ih =>
      rw [applyAll]
      split
      · next next applied => exact ih (filed_of_apply filed applied)
      · exact filed

end Progress

namespace Store

/-- A property of the entities and their versions that lasts when mutations are applied. -/
structure Lasting (P : Store → Prop) : Prop where
  content : ∀ (s : Store) {next : Store}, next.entities = s.entities → next.version = s.version →
    next.versions = s.versions → P s → P next
  applied : ∀ {s : Store} (mutations : List Mutation), P s → P (s.applyMutations mutations).2

namespace Lasting

variable {P : Store → Prop} {s : Store}

theorem commit (lasting : Lasting P) (holds : P s) (mutations : List Mutation) (handle? : Option Handle) :
    P (s.commit mutations handle?).2 := by
  have closed : P (s.closing handle?) := lasting.content s rfl rfl rfl holds
  cases handle? with
  | none => exact lasting.applied mutations closed
  | some h =>
      cases found : s.transactions.at? h with
      | none =>
          rw [commit_of_unknown found]
          exact closed
      | some t =>
          cases conflict : t.conflict? s mutations with
          | none =>
              rw [commit_of_clear found conflict]
              exact lasting.applied mutations closed
          | some k =>
              rw [commit_of_conflict found conflict]
              exact closed

theorem perform (lasting : Lasting P) (holds : P s) (request : Request) : P (s.perform request).2 := by
  cases request with
  | lookup keys handle? =>
      obtain ⟨transactions, frame⟩ := s.lookup_frame keys handle?
      show P (s.lookup keys handle?).2
      rw [frame]
      exact lasting.content s rfl rfl rfl holds
  | runQuery query handle? token =>
      obtain ⟨transactions, cursors, queried, frame⟩ := s.runQuery_frame query handle? token
      show P (s.runQuery query handle? token).2
      rw [frame]
      exact lasting.content s rfl rfl rfl holds
  | commit mutations handle? => exact lasting.commit holds mutations handle?
  | beginTransaction => exact lasting.content s rfl rfl rfl holds
  | rollback h => exact lasting.content s rfl rfl rfl holds
  | allocateIds keys =>
      obtain ⟨calls, counters, frame⟩ := s.allocateIds_frame keys
      show P (s.allocateIds keys).2
      rw [frame]
      exact lasting.content s rfl rfl rfl holds

theorem run (lasting : Lasting P) (holds : P s) (requests : List Request) : P (s.run requests).2 := by
  induction requests generalizing s with
  | nil => exact holds
  | cons request rest ih => exact ih (lasting.perform holds request)

end Lasting

theorem lasting_filed : Lasting fun s => Filed s.entities where
  content _ _ entities _ _ filed := entities ▸ filed
  applied {s} mutations filed := by
    have copied := Progress.filed_of_applyAll (s.reserved mutations) mutations (p := s.progress) filed
    unfold applyMutations
    dsimp only
    split
    · exact filed
    · exact filed
    · next p applied =>
        simp only [reserved, progress, applied] at copied
        split
        · exact copied
        · exact filed

/-- No key has changed later than the last commit. -/
def Dated (s : Store) : Prop := ∀ k, s.versionOf k ≤ s.version

theorem dated_touching {s : Store} (dated : s.Dated) (touched : List AnyKey) : (s.touching touched).Dated := by
  intro k
  rw [versionOf_touching]
  split
  · exact Nat.le_refl _
  · exact Nat.le_succ_of_le (dated k)

theorem lasting_dated : Lasting Dated where
  content _ _ _ version versions dated k := by
    rw [versionOf, versions, version]
    exact dated k
  applied {s} mutations dated := by
    unfold applyMutations
    dsimp only
    split
    · exact dated
    · exact dated
    · split
      · exact dated_touching dated _
      · exact dated_touching dated _

theorem dated_reached (limits : StoreLimits) (requests : List Request) : (reached limits requests).Dated :=
  lasting_dated.run (s := empty limits) (fun _ => Nat.le_refl 0) requests

theorem seesFiled_reached (limits : StoreLimits) (requests : List Request) :
    (reached limits requests).SeesFiled := by
  suffices kept : ∀ s : Store, s.SeesFiled → (s.run requests).2.SeesFiled by
    refine kept (empty limits) ?_
    intro handle? stored seen
    cases handle? with
    | none =>
        cases seen
        exact Filed.nil
    | some h => cases seen
  induction requests with
  | nil => exact fun s sees => sees
  | cons request rest ih =>
      intro s sees
      have filed := lasting_filed.perform (sees none s.entities rfl) request
      exact ih _ (seesFiled_of_perform sees filed)

end Store

end EntityStore
