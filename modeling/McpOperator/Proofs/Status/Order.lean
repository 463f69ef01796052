import McpOperator.Proofs.Status.Forgetting
import Mathlib.Data.List.Nodup
import Mathlib.Logic.Function.Basic

namespace McpOperator

theorem eraseDups_concat (types : List String) (type : String) : (types ++ [type]).eraseDups =
    if type ∈ types then types.eraseDups else types.eraseDups ++ [type] := by
  rw [List.eraseDups_append, List.cons_removeAll]
  by_cases h : type ∈ types <;> simp [h, List.eraseDups_cons]

theorem nodup_eraseDups (types : List String) : types.eraseDups.Nodup := by
  induction types using List.reverseRecOn with
  | nil => exact List.nodup_nil
  | append_singleton types type ih =>
      rw [eraseDups_concat]
      split
      · exact ih
      · rename_i h
        refine List.nodup_append.2 ⟨ih, by simp, ?_⟩
        intro a ha b hb
        rw [List.mem_singleton] at hb
        rw [List.mem_eraseDups] at ha
        rintro rfl
        exact h (hb ▸ ha)

theorem eraseDups_of_nodup {types : List String} (h : types.Nodup) : types.eraseDups = types := by
  induction types using List.reverseRecOn with
  | nil => rfl
  | append_singleton types type ih =>
      obtain ⟨htypes, -, hfresh⟩ := List.nodup_append.1 h
      have hmem : type ∉ types := fun hmem => hfresh type hmem type List.mem_cons_self rfl
      rw [eraseDups_concat, if_neg hmem, ih htypes]

theorem eraseDups_append_of_nodup (types : List String) {others : List String} (h : others.Nodup) :
    (types ++ others).eraseDups = types.eraseDups ++ others.filter (· ∉ types) := by
  have hremove : others.removeAll types = others.filter (· ∉ types) := by
    simp [List.removeAll]
  rw [List.eraseDups_append, hremove, eraseDups_of_nodup (h.filter _)]

namespace ConditionSet

def putAll (s : ConditionSet) (calls : List (Instant × Setting)) : ConditionSet :=
  calls.foldl (fun s call => s.put call.1 call.2) s

variable {s : ConditionSet}

theorem Keyed.put (h : s.Keyed) (now : Instant) (c : Setting) : (s.put now c).Keyed :=
  h.foldl_put now [c]

theorem Keyed.putAll (h : s.Keyed) (calls : List (Instant × Setting)) : (s.putAll calls).Keyed := by
  induction calls generalizing s with
  | nil => exact h
  | cons call rest ih => exact ih (h.put call.1 call.2)

theorem Keyed.types_toList (h : s.Keyed) : s.toList.map Condition.type = s.table.keys := by
  rw [toList, List.map_map, Table.keys]
  exact List.map_congr_left h.type_eq

theorem Keyed.mem_toList_iff (h : s.Keyed) {c : Condition} :
    c ∈ s.toList ↔ s.table.get? c.type = some c := by
  constructor
  · intro hc
    obtain ⟨e, he, rfl⟩ := List.mem_map.1 hc
    rw [h.type_eq e he]
    exact Table.get?_of_mem h.nodup he
  · intro hget
    have hfilter : c ∈ s.toList.filter fun d => d.type = c.type := by
      rw [h.filter_type hget]
      exact List.mem_cons_self
    exact List.mem_of_mem_filter hfilter

theorem keys_ofList (existing : List Condition) (generation : Option Int64) :
    (ofList existing generation).table.keys = (existing.map Condition.type).eraseDups := by
  induction existing using List.reverseRecOn with
  | nil => rfl
  | append_singleton existing c ih =>
      rw [ofList] at ih ⊢
      rw [List.foldl_append, List.map_append, List.foldl_cons, List.foldl_nil, Table.keys_put, ih,
        List.map_cons, List.map_nil, eraseDups_concat]
      simp only [List.mem_eraseDups]

theorem keys_putAll {types : List String} (h : s.table.keys = types.eraseDups)
    (calls : List (Instant × Setting)) :
    (s.putAll calls).table.keys = (types ++ calls.map fun call => call.2.type.text).eraseDups := by
  induction calls generalizing s types with
  | nil => rwa [List.map_nil, List.append_nil]
  | cons call rest ih =>
      have hput : (s.put call.1 call.2).table.keys = (types ++ [call.2.type.text]).eraseDups := by
        rw [put_table, Table.keys_put, h, eraseDups_concat]
        simp only [List.mem_eraseDups]
      rw [putAll, List.foldl_cons, List.map_cons, List.append_cons]
      exact ih hput

end ConditionSet

/-- The types in the order in which they were first seen, and beside them a map from types to
conditions. -/
structure ConditionIndex where
  order : List String
  entries : String → Option Condition
  generation : Option Int64

namespace ConditionIndex

def insert (x : ConditionIndex) (type : String) (c : Condition) : ConditionIndex :=
  { x with
    order := if (x.entries type).isSome then x.order else x.order ++ [type]
    entries := Function.update x.entries type (some c) }

def ofList (existing : List Condition) (generation : Option Int64) : ConditionIndex :=
  existing.foldl (fun x c => x.insert c.type c) ⟨[], fun _ => none, generation⟩

def transitionTime (x : ConditionIndex) (now : Instant) (type status : String) : Instant :=
  match x.entries type with
  | some c => if c.status = status then c.lastTransitionTime else now
  | none => now

def put (x : ConditionIndex) (now : Instant) (c : Setting) : ConditionIndex :=
  x.insert c.type.text (c.condition x.generation
    (x.transitionTime now c.type.text (ConditionSet.statusText c.holds)))

def putAll (x : ConditionIndex) (calls : List (Instant × Setting)) : ConditionIndex :=
  calls.foldl (fun x call => x.put call.1 call.2) x

/-- Takes the conditions of the types out of the map one by one. A type that has none, or whose condition
has been taken already, is passed over. -/
def drain : List String → (String → Option Condition) → List Condition
  | [], _ => []
  | type :: rest, entries => (entries type).toList ++ drain rest (Function.update entries type none)

def toList (x : ConditionIndex) : List Condition := drain x.order x.entries

/-- The order names each type of the map once and no other, so the conditions come out of it with each
type once and with none missing. -/
structure Consistent (x : ConditionIndex) : Prop where
  nodup : x.order.Nodup
  mem_order_iff : ∀ type, type ∈ x.order ↔ (x.entries type).isSome
  types_toList : x.toList.map Condition.type = x.order
  mem_toList_iff : ∀ c, c ∈ x.toList ↔ x.entries c.type = some c

/-- The index says of each type what the set says of it, in the same order. -/
structure InStep (x : ConditionIndex) (s : ConditionSet) : Prop where
  order_eq : x.order = s.table.keys
  entries_eq : ∀ type, x.entries type = s.table.get? type
  generation_eq : x.generation = s.generation

variable {x : ConditionIndex} {s : ConditionSet}

theorem InStep.insert (h : InStep x s) (type : String) (c : Condition) :
    InStep (x.insert type c) { s with table := s.table.put type c } where
  order_eq := by
    have hmem : (x.entries type).isSome ↔ type ∈ s.table.keys := by
      rw [h.entries_eq, Table.isSome_get?_iff]
    simp only [ConditionIndex.insert, Table.keys_put, h.order_eq, hmem]
  entries_eq other := by
    by_cases hother : other = type
    · subst hother
      rw [Table.get?_put_self]
      exact Function.update_self ..
    · rw [Table.get?_put_of_ne _ _ (Ne.symm hother), ← h.entries_eq]
      exact Function.update_of_ne hother ..
  generation_eq := h.generation_eq

theorem InStep.put (h : InStep x s) (now : Instant) (c : Setting) :
    InStep (x.put now c) (s.put now c) := by
  have htime : ∀ type status, x.transitionTime now type status = s.transitionTime now type status := by
    intro type status
    cases hget : s.table.get? type <;>
      simp [transitionTime, ConditionSet.transitionTime, h.entries_eq, hget]
  rw [ConditionIndex.put, h.generation_eq, htime]
  exact h.insert _ _

theorem InStep.putAll (h : InStep x s) (calls : List (Instant × Setting)) :
    InStep (x.putAll calls) (s.putAll calls) := by
  induction calls generalizing x s with
  | nil => exact h
  | cons call rest ih => exact ih (h.put call.1 call.2)

theorem InStep.foldl_insert (h : InStep x s) (existing : List Condition) :
    InStep (existing.foldl (fun x c => x.insert c.type c) x)
      { s with table := existing.foldl (fun t c => t.put c.type c) s.table } := by
  induction existing generalizing x s with
  | nil => exact h
  | cons c rest ih => exact ih (h.insert c.type c)

theorem inStep_ofList (existing : List Condition) (generation : Option Int64) :
    InStep (ofList existing generation) (ConditionSet.ofList existing generation) :=
  InStep.foldl_insert (s := ⟨[], generation⟩) ⟨rfl, fun _ => rfl, rfl⟩ existing

theorem drain_keys {t : Table String Condition} (hnodup : t.keys.Nodup)
    {entries : String → Option Condition} (h : ∀ type ∈ t.keys, entries type = t.get? type) :
    drain t.keys entries = t.map Prod.snd := by
  induction t generalizing entries with
  | nil => rfl
  | cons e rest ih =>
      obtain ⟨hfresh, hrest⟩ := List.nodup_cons.1 hnodup
      have hhead : entries e.1 = some e.2 := by
        rw [h e.1 List.mem_cons_self, Table.get?, if_pos rfl]
      have htail : ∀ type ∈ Table.keys rest, Function.update entries e.1 none type =
          Table.get? rest type := by
        intro type htype
        have hne : type ≠ e.1 := fun heq => hfresh (heq ▸ htype)
        rw [Function.update_of_ne hne, h type (List.mem_cons_of_mem _ htype), Table.get?,
          if_neg (Ne.symm hne)]
      rw [Table.keys_cons, drain, hhead, ih hrest htail]
      rfl

theorem InStep.toList (h : InStep x s) (hs : s.Keyed) : x.toList = s.toList := by
  rw [ConditionIndex.toList, h.order_eq]
  exact drain_keys hs.nodup fun type _ => h.entries_eq type

theorem InStep.consistent (h : InStep x s) (hs : s.Keyed) : x.Consistent where
  nodup := h.order_eq ▸ hs.nodup
  mem_order_iff type := by rw [h.order_eq, h.entries_eq, Table.isSome_get?_iff]
  types_toList := by rw [h.toList hs, hs.types_toList, h.order_eq]
  mem_toList_iff c := by rw [h.toList hs, hs.mem_toList_iff, h.entries_eq]

end ConditionIndex

def ConditionType.reported : List String := ["Accepted", "ResolvedRefs", "Programmed", "Ready"]

theorem Report.settings_texts (r : Report) :
    (r.settings.map fun c => c.type.text) = ConditionType.reported := by
  have h := congrArg (List.map ConditionType.text) r.settings_types
  rw [List.map_map] at h
  exact h

theorem Condition.isOwn_iff (c : Condition) : c.isOwn = true ↔ c.type ∈ ConditionType.reported := by
  rw [isOwn, ConditionType.ofText?.eq_def]
  split <;> simp_all [ConditionType.reported]

def McpServer.conditions (server : McpServer) : List Condition :=
  (server.status.map ServerStatus.conditions).getD []

def McpServer.conditionTypes (server : McpServer) : List String := server.conditions.map Condition.type

/-- What was there stays in its place, but that of several conditions of one type the last is kept, at the
place of the first; what is missing of the operator's own comes behind it. -/
structure ServerStatus.Continues (status : ServerStatus) (existing : List Condition)
    (generation : Option Int64) : Prop where
  types : status.conditions.map Condition.type = (existing.map Condition.type).eraseDups ++
    ConditionType.reported.filter (· ∉ existing.map Condition.type)
  foreign : ∀ c ∈ status.conditions, c.isOwn = false →
    (existing.filter fun d => d.type = c.type).getLast? = some c
  own : ∀ c ∈ status.conditions, c.isOwn = true → c.observedGeneration = generation
  places : (existing.map Condition.type).Nodup → ∀ (i : Nat) (c : Condition), existing[i]? = some c →
    ∃ d, status.conditions[i]? = some d ∧ d.type = c.type ∧ (c.isOwn = false → d = c)

namespace ServerStatus

variable (now : Instant) (server : McpServer) (r : Report)

theorem keyed_after : ((ConditionSet.ofServer server).setReport now r).Keyed :=
  (ConditionSet.keyed_ofList _ _).setReport now r

theorem types_after : (after now server r).conditions.map Condition.type =
    server.conditionTypes.eraseDups ++ ConditionType.reported.filter (· ∉ server.conditionTypes) := by
  have hcalls : (ConditionSet.ofServer server).setReport now r =
      (ConditionSet.ofServer server).putAll (r.settings.map (now, ·)) := by
    rw [ConditionSet.setReport_eq, ConditionSet.putAll, List.foldl_map]
  have htexts : ((r.settings.map (now, ·)).map fun call => call.2.type.text) =
      ConditionType.reported := by
    rw [List.map_map]
    exact r.settings_texts
  have hkeys : (ConditionSet.ofServer server).table.keys = server.conditionTypes.eraseDups :=
    ConditionSet.keys_ofList _ _
  rw [after_eq, (keyed_after now server r).types_toList, hcalls, ConditionSet.keys_putAll hkeys, htexts]
  exact eraseDups_append_of_nodup _ (by decide)

theorem get?_of_mem_after {c : Condition} (hc : c ∈ (after now server r).conditions) :
    ((ConditionSet.ofServer server).setReport now r).table.get? c.type = some c :=
  (keyed_after now server r).mem_toList_iff.1 hc

theorem foreign_after {c : Condition} (hc : c ∈ (after now server r).conditions)
    (hforeign : c.isOwn = false) :
    (server.conditions.filter fun d => d.type = c.type).getLast? = some c := by
  have hget := get?_of_mem_after now server r hc
  have hother : c.type ∉ r.settings.map fun c => c.type.text := by
    rw [r.settings_texts, ← c.isOwn_iff, hforeign]
    exact Bool.false_ne_true
  rwa [ConditionSet.setReport_eq, ConditionSet.get?_foldl_put_of_not_mem now hother,
    ConditionSet.ofServer, ConditionSet.get?_ofList] at hget

theorem own_after {c : Condition} (hc : c ∈ (after now server r).conditions) (hown : c.isOwn = true) :
    c.observedGeneration = server.metadata.generation := by
  have hget := get?_of_mem_after now server r hc
  rw [c.isOwn_iff, ← r.settings_texts] at hown
  obtain ⟨d, hd, htype⟩ := List.mem_map.1 hown
  rw [ConditionSet.setReport_eq, ← htype,
    ConditionSet.get?_foldl_put now r.settings_nodup hd] at hget
  rw [← Option.some.inj hget]
  rfl

theorem continues_after :
    (after now server r).Continues server.conditions server.metadata.generation where
  types := types_after now server r
  foreign _ hc := foreign_after now server r hc
  own _ hc := own_after now server r hc
  places hnodup i c hi := by
    have hat : ((after now server r).conditions.map Condition.type)[i]? = some c.type := by
      have htype : server.conditionTypes[i]? = some c.type := by
        rw [McpServer.conditionTypes, List.getElem?_map, hi, Option.map_some]
      have hnodup : server.conditionTypes.Nodup := hnodup
      rw [types_after, eraseDups_of_nodup hnodup,
        List.getElem?_append_left (List.getElem?_eq_some_iff.1 htype).1]
      exact htype
    rw [List.getElem?_map] at hat
    obtain ⟨d, hd, htype⟩ := Option.map_eq_some_iff.1 hat
    refine ⟨d, hd, htype, fun hforeign => ?_⟩
    have hown : d.isOwn = false := by
      rw [Condition.isOwn, htype]
      exact hforeign
    have hlast := foreign_after now server r (List.mem_of_getElem? hd) hown
    obtain ⟨hmem, -⟩ := List.mem_filter.1 (List.mem_of_getLast? hlast)
    exact List.inj_on_of_nodup_map hnodup hmem (List.mem_of_getElem? hi) htype

end ServerStatus

namespace McpServer

/-- Each type stands once, and all those that reports set are there. -/
structure Listed (server : McpServer) : Prop where
  nodup : server.conditionTypes.Nodup
  reported : ∀ type ∈ ConditionType.reported, type ∈ server.conditionTypes

variable {server : McpServer}

theorem listed_after (now : Instant) (server : McpServer) (report : Report) :
    Listed { server with status := some (ServerStatus.after now server report) } := by
  have htypes : conditionTypes { server with status := some (ServerStatus.after now server report) } =
      server.conditionTypes.eraseDups ++ ConditionType.reported.filter (· ∉ server.conditionTypes) :=
    ServerStatus.types_after now server report
  constructor
  · rw [htypes, ← eraseDups_append_of_nodup _ (by decide)]
    exact nodup_eraseDups _
  · intro type htype
    rw [htypes, ← eraseDups_append_of_nodup _ (by decide), List.mem_eraseDups]
    exact List.mem_append_right _ htype

theorem Listed.types_after (h : server.Listed) (r : Round) :
    (r.after server).conditionTypes = server.conditionTypes := by
  have htypes : (r.after server).conditionTypes =
      server.conditionTypes.eraseDups ++ ConditionType.reported.filter (· ∉ server.conditionTypes) :=
    ServerStatus.types_after r.now _ r.report
  have hnone : ConditionType.reported.filter (· ∉ server.conditionTypes) = [] := by
    simpa [List.filter_eq_nil_iff] using h.reported
  rw [htypes, hnone, List.append_nil, eraseDups_of_nodup h.nodup]

theorem Listed.types_afterRounds (h : server.Listed) (rounds : List Round) :
    (server.afterRounds rounds).conditionTypes = server.conditionTypes := by
  induction rounds generalizing server with
  | nil => rfl
  | cons r rest ih =>
      have hround := h.types_after r
      have hlisted : (r.after server).Listed := ⟨hround ▸ h.nodup, hround ▸ h.reported⟩
      exact (ih hlisted).trans hround

end McpServer

/-- The list of conditions is a map with an order. What is taken out of the map, after any settings on
any conditions, is what the table holds, each type once, in the order in which the types were first
seen. A report keeps the order that it finds, and no later one changes the order that it leaves. -/
theorem conditions_ordered (existing : List Condition) (generation : Option Int64)
    (calls : List (Instant × Setting)) (server : McpServer) (report : Report) (now : Instant)
    (rounds : List Round) :
    ((ConditionIndex.ofList existing generation).putAll calls).Consistent ∧
      ((ConditionIndex.ofList existing generation).putAll calls).order =
        (existing.map Condition.type ++ calls.map fun call => call.2.type.text).eraseDups ∧
      ((ConditionIndex.ofList existing generation).putAll calls).toList =
        ((ConditionSet.ofList existing generation).putAll calls).toList ∧
      (ServerStatus.after now server report).Continues server.conditions server.metadata.generation ∧
      (McpServer.afterRounds { server with status := some (ServerStatus.after now server report) }
        rounds).conditionTypes = (ServerStatus.after now server report).conditions.map Condition.type := by
  have hstep := (ConditionIndex.inStep_ofList existing generation).putAll calls
  have hkeyed := (ConditionSet.keyed_ofList existing generation).putAll calls
  refine ⟨hstep.consistent hkeyed, ?_, hstep.toList hkeyed, ServerStatus.continues_after now server report,
    (McpServer.listed_after now server report).types_afterRounds rounds⟩
  rw [hstep.order_eq]
  exact ConditionSet.keys_putAll (ConditionSet.keys_ofList existing generation) calls

end McpOperator
