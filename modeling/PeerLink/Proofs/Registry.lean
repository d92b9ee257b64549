import Mathlib.Data.List.Induction
import Mathlib.Data.List.Nodup
import PeerLink.Scenario.World

/-! Services that are registered one after another. Each of them is added with all of its names or not at
all, and no two registrations share a name, however their names are split at the dots. So what is served
under a name is settled by the one registration that brought it. -/
namespace PeerLink

variable {M S : Type}

namespace Service

/-- A method as it is registered, under its full name. -/
def published (s : Service M S) (m : Method M) : Method M :=
  { m with name := s.fullName m.name }

/-- A stream as it is registered, under its full name. -/
def publishedStream (s : Service M S) (x : StreamMethod S) : StreamMethod S :=
  { x with name := s.fullName x.name }

end Service

namespace Registry

/-- The name is taken, as that of a method or of a stream. -/
def IsBound (r : Registry M S) (name : String) : Prop :=
  (∃ m, r.method? name = some m) ∨ ∃ x, r.stream? name = some x

/-- Of the full names of a service, methods first, this is the first one that is taken or occurs before. -/
def Clashes (r : Registry M S) (s : Service M S) (name : String) : Prop :=
  ∃ before later, s.fullNames = before ++ name :: later ∧ (r.IsBound name ∨ name ∈ before) ∧
    (∀ other ∈ before, ¬ r.IsBound other) ∧ before.Nodup

/-- A registry to which a service was offered: it stays what it was if the service is refused. -/
def offer (r : Registry M S) (s : Service M S) : Registry M S :=
  match r.register s with
  | .ok r' => r'
  | .error _ => r

/-- The registry after some services were offered, one after another. -/
def ofServices (services : List (Service M S)) : Registry M S :=
  services.foldl offer empty

/-- The service at this place was not refused. -/
def Accepted (services : List (Service M S)) (k : Nat) (s : Service M S) : Prop :=
  services[k]? = some s ∧ ∃ r, (ofServices (services.take k)).register s = .ok r

/-- What a peer serves is what comes of offering its services to an empty registry. -/
theorem registry_peer (services : List ScriptService) (config : Config) (telemetry : Telemetry) :
    (Peer.ofServices services config telemetry).registry = ofServices services := by
  refine congrArg (fun step => services.foldl step empty) (funext fun r => funext fun s => ?_)
  unfold offer
  cases r.register s with
  | ok r' => rfl
  | error e => rfl

/-! ### The first clash -/

theorem firstTaken?_eq_none {taken names : List String} :
    firstTaken? taken names = none ↔ names.Nodup ∧ ∀ name ∈ names, name ∉ taken := by
  induction names generalizing taken with
  | nil => simp [firstTaken?]
  | cons first names ih =>
      rw [firstTaken?]
      split
      · next hTaken => simp [hTaken]
      · next hFree =>
          rw [ih, List.nodup_cons]
          constructor
          · rintro ⟨hNodup, hOthers⟩
            refine ⟨⟨fun h => hOthers first h List.mem_cons_self, hNodup⟩, fun name hName => ?_⟩
            rcases List.mem_cons.mp hName with rfl | hName
            · exact hFree
            · exact fun h => hOthers name hName (List.mem_cons_of_mem _ h)
          · rintro ⟨⟨hFirst, hNodup⟩, hOthers⟩
            refine ⟨hNodup, fun name hName h => ?_⟩
            rcases List.mem_cons.mp h with rfl | h
            · exact hFirst hName
            · exact hOthers name (List.mem_cons_of_mem _ hName) h

theorem firstTaken?_append (taken before later : List String) :
    firstTaken? taken (before ++ later) =
      (firstTaken? taken before).or (firstTaken? (before.reverse ++ taken) later) := by
  induction before generalizing taken with
  | nil => rfl
  | cons first before ih =>
      rw [List.cons_append, firstTaken?, firstTaken?]
      split
      · rfl
      · rw [ih, List.reverse_cons, List.append_assoc]
        rfl

theorem firstTaken?_eq_some {taken names : List String} {name : String} :
    firstTaken? taken names = some name ↔ ∃ before later, names = before ++ name :: later ∧
      (name ∈ taken ∨ name ∈ before) ∧ (∀ other ∈ before, other ∉ taken) ∧ before.Nodup := by
  constructor
  · intro h
    induction names generalizing taken with
    | nil => cases h
    | cons first names ih =>
        rw [firstTaken?] at h
        split at h
        · next hTaken =>
            cases h
            exact ⟨[], names, rfl, .inl hTaken, nofun, List.nodup_nil⟩
        · next hFree =>
            obtain ⟨before, later, rfl, hName, hOthers, hNodup⟩ := ih h
            have hNone : firstTaken? taken (first :: before) = none := by
              rw [firstTaken?, if_neg hFree]
              exact firstTaken?_eq_none.mpr ⟨hNodup, hOthers⟩
            obtain ⟨hNodup, hOthers⟩ := firstTaken?_eq_none.mp hNone
            refine ⟨first :: before, later, rfl, ?_, hOthers, hNodup⟩
            rw [List.mem_cons, or_assoc] at hName
            rw [List.mem_cons]
            exact or_left_comm.mp hName
  · rintro ⟨before, later, rfl, hName, hOthers, hNodup⟩
    have hNone := firstTaken?_eq_none.mpr ⟨hNodup, hOthers⟩
    rw [firstTaken?_append, hNone, Option.none_or, firstTaken?, if_pos]
    rw [List.mem_append, List.mem_reverse]
    exact hName.symm

/-! ### What is found under a name -/

/-- Of entries with different names, the one with the name sought is found. -/
theorem find?_name {α : Type} {name : α → String} {entries : List α}
    (hNodup : (entries.map name).Nodup) {key : String} {x : α} :
    entries.find? (fun y => name y == key) = some x ↔ x ∈ entries ∧ name x = key := by
  constructor
  · intro h
    exact ⟨List.mem_of_find?_eq_some h, by simpa using List.find?_some h⟩
  · rintro ⟨hx, rfl⟩
    cases hFind : entries.find? (fun y => name y == name x) with
    | none => exact absurd (beq_self_eq_true (name x)) (List.find?_eq_none.mp hFind x hx)
    | some y =>
        have hName : name y = name x := by simpa using List.find?_some hFind
        rw [List.inj_on_of_nodup_map hNodup (List.mem_of_find?_eq_some hFind) hx hName]

section Lookup

variable {r : Registry M S} {name : String}

theorem exists_method? : (∃ m, r.method? name = some m) ↔ name ∈ r.methods.map Method.name := by
  rw [← Option.isSome_iff_exists, method?, List.find?_isSome]
  simp

theorem exists_stream? : (∃ x, r.stream? name = some x) ↔ name ∈ r.streams.map StreamMethod.name := by
  rw [← Option.isSome_iff_exists, stream?, List.find?_isSome]
  simp

theorem isBound_iff : r.IsBound name ↔ name ∈ r.names := by
  rw [IsBound, exists_method?, exists_stream?, names, List.mem_append]

theorem method?_eq_some (hNodup : r.names.Nodup) {m : Method M} :
    r.method? name = some m ↔ m ∈ r.methods ∧ m.name = name :=
  find?_name (List.nodup_append.mp hNodup).1

theorem stream?_eq_some (hNodup : r.names.Nodup) {x : StreamMethod S} :
    r.stream? name = some x ↔ x ∈ r.streams ∧ x.name = name :=
  find?_name (List.nodup_append.mp hNodup).2.1

/-- A method and a stream never have one name. -/
theorem not_both (hNodup : r.names.Nodup) {m : Method M} {x : StreamMethod S}
    (hMethod : r.method? name = some m) : r.stream? name ≠ some x := fun hStream =>
  (List.nodup_append.mp hNodup).2.2 name (exists_method?.mp ⟨m, hMethod⟩) name
    (exists_stream?.mp ⟨x, hStream⟩) rfl

end Lookup

/-! ### One registration -/

section Register

variable {r r' : Registry M S} {s : Service M S} {name : String}

theorem register_eq_error : r.register s = .error (.duplicate name) ↔ r.Clashes s name := by
  have hFirst : r.Clashes s name ↔ firstTaken? r.names s.fullNames = some name := by
    simp only [firstTaken?_eq_some, Clashes, isBound_iff]
  rw [hFirst, register]
  split
  · next other hOther => simp [hOther]
  · next hNone => simp [hNone]

/-- What is added by a registration that succeeds, and that all of it is new. -/
theorem register_eq_ok (h : r.register s = .ok r') :
    s.fullNames.Nodup ∧ (∀ name ∈ s.fullNames, ¬ r.IsBound name) ∧
      r'.methods = r.methods ++ s.methods.map s.published ∧
      r'.streams = r.streams ++ s.streams.map s.publishedStream := by
  rw [register] at h
  split at h
  · cases h
  · next hNone =>
      cases h
      obtain ⟨hNodup, hFree⟩ := firstTaken?_eq_none.mp hNone
      exact ⟨hNodup, fun name hName => mt isBound_iff.mp (hFree name hName), rfl, rfl⟩

theorem names_published (s : Service M S) :
    (s.methods.map s.published).map Method.name ++
      (s.streams.map s.publishedStream).map StreamMethod.name = s.fullNames := by
  rw [List.map_map, List.map_map]
  rfl

/-- The names that are taken afterwards. -/
theorem names_register (h : r.register s = .ok r') : r'.names.Perm (r.names ++ s.fullNames) := by
  obtain ⟨-, -, hMethods, hStreams⟩ := register_eq_ok h
  rw [names, hMethods, hStreams, List.map_append, List.map_append, ← names_published, names]
  simp only [List.append_assoc]
  exact List.Perm.append_left _ (List.perm_append_comm_assoc _ _ _)

theorem isBound_register (h : r.register s = .ok r') :
    r'.IsBound name ↔ r.IsBound name ∨ name ∈ s.fullNames := by
  rw [isBound_iff, isBound_iff, (names_register h).mem_iff, List.mem_append]

/-- No name gets taken twice. -/
theorem nodup_register (h : r.register s = .ok r') (hNodup : r.names.Nodup) : r'.names.Nodup := by
  obtain ⟨hService, hFree, -⟩ := register_eq_ok h
  rw [(names_register h).nodup_iff, List.nodup_append]
  refine ⟨hNodup, hService, fun a ha b hb hSame => ?_⟩
  exact hFree b hb (isBound_iff.mpr (hSame ▸ ha))

end Register

/-! ### One registration after another -/

section Services

variable {services : List (Service M S)} {s : Service M S}

theorem ofServices_concat (services : List (Service M S)) (s : Service M S) :
    ofServices (services ++ [s]) = (ofServices services).offer s := by
  rw [ofServices, List.foldl_append]
  rfl

theorem offer_of_ok {r r' : Registry M S} (h : r.register s = .ok r') : r.offer s = r' := by
  rw [offer, h]

theorem offer_of_error {r : Registry M S} {e : RegistryError} (h : r.register s = .error e) :
    r.offer s = r := by
  rw [offer, h]

theorem nodup_ofServices (services : List (Service M S)) : (ofServices services).names.Nodup := by
  induction services using List.reverseRecOn with
  | nil => exact List.nodup_nil
  | append_singleton services s ih =>
      rw [ofServices_concat]
      cases hRegister : (ofServices services).register s with
      | error e => rwa [offer_of_error hRegister]
      | ok r =>
          rw [offer_of_ok hRegister]
          exact nodup_register hRegister ih

theorem accepted_concat {k : Nat} {t : Service M S} : Accepted (services ++ [s]) k t ↔
    Accepted services k t ∨
      k = services.length ∧ t = s ∧ ∃ r, (ofServices services).register s = .ok r := by
  unfold Accepted
  rcases Nat.lt_trichotomy k services.length with hk | rfl | hk
  · rw [List.getElem?_append_left hk, List.take_append_of_le_length (Nat.le_of_lt hk)]
    exact (or_iff_left fun h => Nat.ne_of_lt hk h.1).symm
  · simp only [List.getElem?_concat_length, Option.some.injEq, List.take_left, Nat.le_refl,
      List.getElem?_eq_none, reduceCtorEq, false_and, false_or, true_and]
    constructor
    · rintro ⟨rfl, hOk⟩
      exact ⟨rfl, hOk⟩
    · rintro ⟨rfl, hOk⟩
      exact ⟨rfl, hOk⟩
  · rw [List.getElem?_eq_none (by simp; omega), List.getElem?_eq_none (Nat.le_of_lt hk)]
    simp only [reduceCtorEq, false_and, false_or, false_iff, not_and]
    omega

/-- A registry has the parts that the accepted services brought, and keeps them. -/
theorem mem_ofServices {α : Type} (part : Registry M S → List α) (share : Service M S → List α)
    (hEmpty : part empty = [])
    (hAdds : ∀ {r s r'}, r.register s = .ok r' → part r' = part r ++ share s) {x : α} :
    x ∈ part (ofServices services) ↔ ∃ k s, Accepted services k s ∧ x ∈ share s := by
  induction services using List.reverseRecOn with
  | nil =>
      rw [show ofServices ([] : List (Service M S)) = empty from rfl, hEmpty]
      simp [Accepted]
  | append_singleton services s ih =>
      simp only [accepted_concat, ofServices_concat]
      cases hRegister : (ofServices services).register s with
      | error e => simp [offer_of_error hRegister, ih]
      | ok r =>
          rw [offer_of_ok hRegister, hAdds hRegister, List.mem_append, ih]
          constructor
          · rintro (⟨k, t, hAccepted, hx⟩ | hx)
            · exact ⟨k, t, .inl hAccepted, hx⟩
            · exact ⟨services.length, s, .inr ⟨rfl, rfl, r, rfl⟩, hx⟩
          · rintro ⟨k, t, hAccepted | ⟨-, rfl, -⟩, hx⟩
            · exact .inl ⟨k, t, hAccepted, hx⟩
            · exact .inr hx

theorem mem_methods {m : Method M} : m ∈ (ofServices services).methods ↔
    ∃ k s, Accepted services k s ∧ m ∈ s.methods.map s.published :=
  mem_ofServices methods (fun s => s.methods.map s.published) rfl
    fun h => (register_eq_ok h).2.2.1

theorem mem_streams {x : StreamMethod S} : x ∈ (ofServices services).streams ↔
    ∃ k s, Accepted services k s ∧ x ∈ s.streams.map s.publishedStream :=
  mem_ofServices streams (fun s => s.streams.map s.publishedStream) rfl
    fun h => (register_eq_ok h).2.2.2

theorem Accepted.append {k : Nat} (h : Accepted services k s) (later : List (Service M S)) :
    Accepted (services ++ later) k s := by
  obtain ⟨hs, hOk⟩ := h
  have hk := (List.getElem?_eq_some_iff.mp hs).1
  refine ⟨by rw [List.getElem?_append_left hk, hs], ?_⟩
  rwa [List.take_append_of_le_length (Nat.le_of_lt hk)]

theorem Accepted.nodup {k : Nat} (h : Accepted services k s) : s.fullNames.Nodup := by
  obtain ⟨-, r, hOk⟩ := h
  exact (register_eq_ok hOk).1

/-- What an accepted service brought is taken from then on. -/
theorem Accepted.isBound {k : Nat} (h : Accepted services k s) {name : String}
    (hName : name ∈ s.fullNames) : (ofServices services).IsBound name := by
  rw [← names_published] at hName
  rw [isBound_iff]
  rcases List.mem_append.mp hName with hName | hName
  · obtain ⟨m, hm, rfl⟩ := List.mem_map.mp hName
    exact List.mem_append_left _ (List.mem_map_of_mem (mem_methods.mpr ⟨k, s, h, hm⟩))
  · obtain ⟨x, hx, rfl⟩ := List.mem_map.mp hName
    exact List.mem_append_right _ (List.mem_map_of_mem (mem_streams.mpr ⟨k, s, h, hx⟩))

/-- Of two services that were accepted the later one had other names. -/
theorem Accepted.not_shared {j k : Nat} {t : Service M S} (h : Accepted services j s)
    (h' : Accepted services k t) (hOrder : j < k) {name : String} (hName : name ∈ s.fullNames) :
    name ∉ t.fullNames := by
  obtain ⟨-, r, hOk⟩ := h'
  have hBefore : Accepted (services.take k) j s :=
    ⟨by rw [List.getElem?_take_of_lt hOrder]; exact h.1, by
      rw [List.take_take, Nat.min_eq_left (Nat.le_of_lt hOrder)]
      exact h.2⟩
  exact fun hShared => (register_eq_ok hOk).2.1 name hShared (hBefore.isBound hName)

/-- Later registrations leave alone what is found under a name. -/
theorem method?_append {m : Method M} {name : String} (h : (ofServices services).method? name = some m)
    (later : List (Service M S)) : (ofServices (services ++ later)).method? name = some m := by
  rw [method?_eq_some (nodup_ofServices _), mem_methods] at h ⊢
  obtain ⟨⟨k, s, hAccepted, hm⟩, hName⟩ := h
  exact ⟨⟨k, s, hAccepted.append later, hm⟩, hName⟩

theorem stream?_append {x : StreamMethod S} {name : String}
    (h : (ofServices services).stream? name = some x) (later : List (Service M S)) :
    (ofServices (services ++ later)).stream? name = some x := by
  rw [stream?_eq_some (nodup_ofServices _), mem_streams] at h ⊢
  obtain ⟨⟨k, s, hAccepted, hx⟩, hName⟩ := h
  exact ⟨⟨k, s, hAccepted.append later, hx⟩, hName⟩

/-- A name belongs to one of the services that were accepted. -/
theorem Accepted.unique {j k : Nat} {t : Service M S} (h : Accepted services j s)
    (h' : Accepted services k t) {name : String} (hName : name ∈ s.fullNames)
    (hName' : name ∈ t.fullNames) : j = k := by
  rcases Nat.lt_trichotomy j k with hOrder | hSame | hOrder
  · exact absurd hName' (h.not_shared h' hOrder hName)
  · exact hSame
  · exact absurd hName (h'.not_shared h hOrder hName')

end Services

/-! ### What a registration adds, and what a registry is -/

/-- The service is added with all of its names, each of them new, and nothing else changes. -/
structure Adds (r : Registry M S) (s : Service M S) (r' : Registry M S) : Prop where
  fresh : ∀ name ∈ s.fullNames, ¬ r.IsBound name
  bound : ∀ name, r'.IsBound name ↔ r.IsBound name ∨ name ∈ s.fullNames
  method : ∀ m ∈ s.methods, r'.method? (s.fullName m.name) = some (s.published m)
  stream : ∀ x ∈ s.streams, r'.stream? (s.fullName x.name) = some (s.publishedStream x)
  otherMethods : ∀ name, name ∉ s.fullNames → r'.method? name = r.method? name
  otherStreams : ∀ name, name ∉ s.fullNames → r'.stream? name = r.stream? name

/-- What is found is what the accepted services brought, each name being of one of them alone. -/
structure Exclusive (services : List (Service M S)) (r : Registry M S) : Prop where
  methodOrStream : ∀ name m x, r.method? name = some m → r.stream? name ≠ some x
  methodName : ∀ name m, r.method? name = some m → m.name = name
  streamName : ∀ name x, r.stream? name = some x → x.name = name
  method : ∀ name m, r.method? name = some m ↔ ∃ k s, Accepted services k s ∧
    ∃ own ∈ s.methods, s.fullName own.name = name ∧ m = s.published own
  stream : ∀ name x, r.stream? name = some x ↔ ∃ k s, Accepted services k s ∧
    ∃ own ∈ s.streams, s.fullName own.name = name ∧ x = s.publishedStream own
  namedOnce : ∀ k s, Accepted services k s → s.fullNames.Nodup
  oneService : ∀ j k s t name, Accepted services j s → Accepted services k t → name ∈ s.fullNames →
    name ∈ t.fullNames → j = k

section Results

variable {r r' : Registry M S} {s : Service M S}

theorem find?_map_other {α : Type} {key : α → String} {entries added : List α} {name : String}
    (hOther : name ∉ added.map key) :
    (entries ++ added).find? (fun x => key x == name) = entries.find? fun x => key x == name := by
  have hNone : added.find? (fun x => key x == name) = none := by
    rw [List.find?_eq_none]
    intro x hx hSame
    exact hOther (List.mem_map.mpr ⟨x, hx, by simpa using hSame⟩)
  rw [List.find?_append, hNone, Option.or_none]

theorem adds_of_ok (h : r.register s = .ok r') (hNodup : r.names.Nodup) : Adds r s r' := by
  obtain ⟨-, hFresh, hMethods, hStreams⟩ := register_eq_ok h
  have hNodup' := nodup_register h hNodup
  refine ⟨hFresh, fun name => isBound_register h, fun m hm => ?_, fun x hx => ?_, fun name hName => ?_,
    fun name hName => ?_⟩
  · rw [method?_eq_some hNodup', hMethods]
    exact ⟨List.mem_append_right _ (List.mem_map_of_mem hm), rfl⟩
  · rw [stream?_eq_some hNodup', hStreams]
    exact ⟨List.mem_append_right _ (List.mem_map_of_mem hx), rfl⟩
  · rw [method?, hMethods]
    exact find?_map_other fun h => hName (names_published s ▸ List.mem_append_left _ h)
  · rw [stream?, hStreams]
    exact find?_map_other fun h => hName (names_published s ▸ List.mem_append_right _ h)

theorem exclusive_ofServices (services : List (Service M S)) : Exclusive services (ofServices services) := by
  have hNodup := nodup_ofServices services
  refine ⟨fun name m x => not_both hNodup, fun name m h => ((method?_eq_some hNodup).mp h).2,
    fun name x h => ((stream?_eq_some hNodup).mp h).2, fun name m => ?_, fun name x => ?_,
    fun k s h => h.nodup, fun j k s t name h h' => h.unique h'⟩
  · rw [method?_eq_some hNodup, mem_methods]
    constructor
    · rintro ⟨⟨k, s, hAccepted, hm⟩, rfl⟩
      obtain ⟨own, hOwn, rfl⟩ := List.mem_map.mp hm
      exact ⟨k, s, hAccepted, own, hOwn, rfl, rfl⟩
    · rintro ⟨k, s, hAccepted, own, hOwn, rfl, rfl⟩
      exact ⟨⟨k, s, hAccepted, List.mem_map_of_mem hOwn⟩, rfl⟩
  · rw [stream?_eq_some hNodup, mem_streams]
    constructor
    · rintro ⟨⟨k, s, hAccepted, hx⟩, rfl⟩
      obtain ⟨own, hOwn, rfl⟩ := List.mem_map.mp hx
      exact ⟨k, s, hAccepted, own, hOwn, rfl, rfl⟩
    · rintro ⟨k, s, hAccepted, own, hOwn, rfl, rfl⟩
      exact ⟨⟨k, s, hAccepted, List.mem_map_of_mem hOwn⟩, rfl⟩

end Results

/-- Services are offered one after another. One is refused exactly if one of its full names is taken, or
occurs in it before, and the error tells the first of these; then the registry stays what it is. Otherwise
the service is added, with all of its names. So each name is that of one method or of one stream, of one
service that was accepted, and stays that whatever is registered later. -/
theorem names_bound_once (services : List (Service M S)) :
    (∀ s e, (ofServices services).register s = .error e ↔
      ∃ name, e = .duplicate name ∧ (ofServices services).Clashes s name) ∧
    (∀ s e, (ofServices services).register s = .error e →
      ofServices (services ++ [s]) = ofServices services) ∧
    (∀ s r, (ofServices services).register s = .ok r →
      ofServices (services ++ [s]) = r ∧ Adds (ofServices services) s r) ∧
    Exclusive services (ofServices services) ∧
    (∀ later name m, (ofServices services).method? name = some m →
      (ofServices (services ++ later)).method? name = some m) ∧
    (∀ later name x, (ofServices services).stream? name = some x →
      (ofServices (services ++ later)).stream? name = some x) := by
  refine ⟨fun s e => ?_, fun s e h => ?_, fun s r h => ⟨?_, adds_of_ok h (nodup_ofServices services)⟩,
    exclusive_ofServices services, fun later name m h => method?_append h later,
    fun later name x h => stream?_append h later⟩
  · obtain ⟨name⟩ := e
    rw [register_eq_error]
    constructor
    · exact fun h => ⟨name, rfl, h⟩
    · rintro ⟨_, hSame, h⟩
      cases hSame
      exact h
  · rw [ofServices_concat, offer_of_error h]
  · rw [ofServices_concat, offer_of_ok h]

/-- The method `c` of `A.b` has the full name of the stream `b.c` of `A`, so the second service is refused, and
its method `d` with it. -/
theorem names_bound_once_of_split :
    let services : List (Service Nat Nat) :=
      [⟨"A.b", [⟨"c", 1⟩], []⟩, ⟨"A", [⟨"d", 2⟩], [⟨"b.c", 3, true, false⟩]⟩]
    (ofServices (services.take 1)).Clashes ⟨"A", [⟨"d", 2⟩], [⟨"b.c", 3, true, false⟩]⟩ "A.b.c" ∧
      (ofServices services).method? "A.b.c" = some ⟨"A.b.c", 1⟩ ∧
      ¬ (ofServices services).IsBound "A.d" := by
  intro services
  obtain ⟨hRefused, hSame, -, -, hKept, -⟩ := names_bound_once (services.take 1)
  have hError : (ofServices (services.take 1)).register ⟨"A", [⟨"d", 2⟩], [⟨"b.c", 3, true, false⟩]⟩ =
      .error (.duplicate "A.b.c") := by rfl
  obtain ⟨_, hName, hClashes⟩ := (hRefused _ _).mp hError
  cases hName
  refine ⟨hClashes, hKept (services.drop 1) _ _ (by rfl), ?_⟩
  rw [show services = services.take 1 ++ [⟨"A", [⟨"d", 2⟩], [⟨"b.c", 3, true, false⟩]⟩] from rfl,
    hSame _ _ hError, isBound_iff]
  decide

end Registry

end PeerLink
