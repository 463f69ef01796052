import McpOperator.Proofs.Codec.Config

namespace McpOperator

theorem Option.map_eq_self_iff {α : Type} {f : α → α} {o : Option α} :
    o.map f = o ↔ ∀ a ∈ o, f a = a := by
  cases o <;> simp

theorem List.map_eq_self_iff {α : Type} {f : α → α} {as : List α} :
    as.map f = as ↔ ∀ a ∈ as, f a = a := by
  induction as <;> simp_all

def ObjectMeta.times (m : ObjectMeta) : List Instant :=
  m.creationTimestamp.toList ++ m.deletionTimestamp.toList ++
    (m.managedFields.getD []).flatMap fun e => e.time.toList

def ServerStatus.times (s : ServerStatus) : List Instant := s.conditions.map Condition.lastTransitionTime

def McpServer.times (s : McpServer) : List Instant :=
  s.metadata.times ++ (s.status.map ServerStatus.times).getD []

theorem ManagedFieldsEntry.wholeSeconds_eq_iff {e : ManagedFieldsEntry} :
    e.wholeSeconds = e ↔ ∀ t ∈ e.time, t.Whole := by
  cases e
  simp [wholeSeconds, Option.map_eq_self_iff, Instant.wholeSeconds_eq_iff]

theorem ObjectMeta.wholeSeconds_eq_iff {m : ObjectMeta} :
    m.wholeSeconds = m ↔ ∀ t ∈ m.times, t.Whole := by
  have hparts : m.wholeSeconds = m ↔
      (m.creationTimestamp.map Instant.wholeSeconds = m.creationTimestamp ∧
        m.deletionTimestamp.map Instant.wholeSeconds = m.deletionTimestamp) ∧
      m.managedFields.map (List.map ManagedFieldsEntry.wholeSeconds) = m.managedFields := by
    cases m
    simp [wholeSeconds, and_assoc]
  have hmanaged : m.managedFields.map (List.map ManagedFieldsEntry.wholeSeconds) = m.managedFields ↔
      ∀ e ∈ m.managedFields.getD [], ∀ t ∈ e.time, t.Whole := by
    simp only [Option.map_eq_self_iff, List.map_eq_self_iff, ManagedFieldsEntry.wholeSeconds_eq_iff]
    cases m.managedFields <;> simp
  rw [hparts, hmanaged, Option.map_eq_self_iff, Option.map_eq_self_iff]
  simp only [times, List.forall_mem_append, List.forall_mem_flatMap, Option.mem_toList,
    Option.mem_def, Instant.wholeSeconds_eq_iff]

theorem Condition.wholeSeconds_eq_iff {c : Condition} :
    c.wholeSeconds = c ↔ c.lastTransitionTime.Whole := by
  cases c
  simp [wholeSeconds, Instant.wholeSeconds_eq_iff]

theorem ServerStatus.wholeSeconds_eq_iff {s : ServerStatus} :
    s.wholeSeconds = s ↔ ∀ t ∈ s.times, t.Whole := by
  cases s
  simp [wholeSeconds, times, List.map_eq_self_iff, Condition.wholeSeconds_eq_iff]

theorem McpServer.wholeSeconds_eq_iff {s : McpServer} :
    s.wholeSeconds = s ↔ ∀ t ∈ s.times, t.Whole := by
  obtain ⟨metadata, spec, status⟩ := s
  simp only [wholeSeconds, times, McpServer.mk.injEq, true_and, List.forall_mem_append,
    ObjectMeta.wholeSeconds_eq_iff]
  cases status <;> simp [ServerStatus.wholeSeconds_eq_iff]

namespace Fields

variable {α β : Type} {position : Nat} {items rest : List Json}

theorem placed_map_ok_iff {f : α → β} {x : Fields α} {b : β} :
    (f <$> x).placed position items = .ok (b, rest) ↔
      ∃ a, x.placed position items = .ok (a, rest) ∧ f a = b := by
  change x.placed position items >>= _ = _ ↔ _
  rw [bind_eq_ok_iff]
  simp [and_comm]

theorem placed_seq_ok_iff {f : Fields (α → β)} {x : Fields α} {b : β} :
    (f <*> x).placed position items = .ok (b, rest) ↔
      ∃ g others a, f.placed position items = .ok (g, others) ∧
        x.placed (position + f.width) others = .ok (a, rest) ∧ g a = b := by
  change f.placed position items >>= _ = _ ↔ _
  rw [bind_eq_ok_iff]
  simp [bind_eq_ok_iff]

theorem placed_one_ok_iff {key : String} {decode : Decoder α} {absent : Option α} {a : α} :
    (one key decode absent none).placed position items = .ok (a, rest) ↔
      ∃ json, items = json :: rest ∧ decode json = .ok a := by
  cases items with
  | nil => simp [one]
  | cons json others => simp [one, mapError_eq_ok_iff, map_eq_ok_iff, and_comm]

end Fields

namespace TransportType

/-- The name by which a document says the transport: alone, or as the only key of an object. -/
def nameOf? : Json → Option String
  | .str name => some name
  | .obj [(name, .null)] => some name
  | _ => none

theorem decode_ok {json : Json} {t : TransportType} (h : decode json = .ok t) :
    (nameOf? json).map ofName = some t := by
  unfold decode at h
  split at h <;> cases h <;> rfl

theorem orNull_ok {json : Json} {o : Option TransportType} (h : Decode.orNull decode json = .ok o) :
    o = (nameOf? json).map ofName := by
  unfold Decode.orNull at h
  split at h
  · cases h
    rfl
  · obtain ⟨t, ht, rfl⟩ := map_eq_ok_iff.1 h
    exact (decode_ok ht).symm

theorem ofName_eq_unsupported_iff {name : String} :
    ofName name = unsupported ↔ name ≠ "stdio" ∧ name ≠ "http" := by
  unfold ofName
  split <;> simp_all

end TransportType

namespace ServerSpec

/-- The name by which a spec says its transport. It is the second field of a list. -/
def transportName? : Json → Option String
  | .obj members => (members.lookup "transportType").bind TransportType.nameOf?
  | .arr items => items[1]?.bind TransportType.nameOf?
  | _ => none

variable {spec : ServerSpec}

theorem transport_of_named {members : Members} (h : fields.named members = .ok spec) :
    spec.transportType = (transportName? (.obj members)).map TransportType.ofName := by
  simp only [fields, Fields.named_seq, Fields.named_map, Fields.named_optional, Fields.both_eq_ok_iff]
    at h
  obtain ⟨_, _, h, -, rfl⟩ := h
  obtain ⟨_, _, h, -, rfl⟩ := h
  obtain ⟨_, _, h, -, rfl⟩ := h
  obtain ⟨_, _, h, -, rfl⟩ := h
  obtain ⟨_, transport, ⟨_, _, ⟨⟩, -, rfl⟩, htransport, rfl⟩ := h
  rw [transportName?]
  cases hlookup : members.lookup "transportType" with
  | none =>
      rw [hlookup] at htransport
      exact (Except.ok.inj htransport).symm
  | some json =>
      rw [hlookup] at htransport
      exact TransportType.orNull_ok (mapError_eq_ok_iff.1 htransport)

theorem transport_of_placed {items rest : List Json} (h : fields.placed 0 items = .ok (spec, rest)) :
    spec.transportType = (transportName? (.arr items)).map TransportType.ofName := by
  simp only [fields, Fields.placed_seq_ok_iff, Fields.placed_map_ok_iff, Fields.required, Fields.optional,
    Fields.placed_one_ok_iff] at h
  obtain ⟨_, _, _, h, -, rfl⟩ := h
  obtain ⟨_, _, _, h, -, rfl⟩ := h
  obtain ⟨_, _, _, h, -, rfl⟩ := h
  obtain ⟨_, _, _, h, -, rfl⟩ := h
  obtain ⟨_, _, transport, ⟨_, ⟨deployment, rfl, -⟩, rfl⟩, ⟨json, rfl, htransport⟩, rfl⟩ := h
  exact TransportType.orNull_ok htransport

theorem transport_of_decode {json : Json} (h : decode json = .ok spec) :
    spec.transportType = (transportName? json).map TransportType.ofName := by
  unfold decode Fields.decode at h
  split at h
  · exact transport_of_named (mapError_eq_ok_iff.1 h)
  · rw [Fields.ofItems] at h
    split at h <;> cases h
    exact transport_of_placed ‹_›
  · cases h

theorem transportName?_encode (s : ServerSpec) :
    transportName? s.encode = s.transportType.map TransportType.name := by
  cases h : s.transportType <;> simp [encode, transportName?, h, Json.orNull, TransportType.encode,
    TransportType.nameOf?]

end ServerSpec

/-- Specs are always read back as they were written, servers when none of their times is within a
second. A document that is read as a spec is thereby settled, and a transport of an unknown name is
the unsupported one from then on. -/
theorem server_read_back :
    (∀ s : ServerSpec, ServerSpec.decode s.encode = .ok s) ∧
    (∀ s : McpServer, McpServer.decode s.encode = .ok s ↔ ∀ t ∈ s.times, t.Whole) ∧
    ∀ (json : Json) (spec : ServerSpec), ServerSpec.decode json = .ok spec →
      ServerSpec.decode spec.encode = .ok spec ∧
      spec.transportType = (ServerSpec.transportName? json).map TransportType.ofName ∧
      ∀ name, ServerSpec.transportName? json = some name → name ≠ "stdio" → name ≠ "http" →
        spec.transportType = some .unsupported ∧
          ServerSpec.transportName? spec.encode = some "unsupported" := by
  have hspecs : ∀ s : ServerSpec, ServerSpec.decode s.encode = .ok s :=
    Codec.decode_written ServerSpec.encode ServerSpec.decode
  refine ⟨hspecs, fun s => ?_, fun json spec hread => ⟨hspecs spec, ?_, ?_⟩⟩
  · rw [Codec.decode_written McpServer.encode McpServer.decode, Except.ok.injEq]
    exact McpServer.wholeSeconds_eq_iff
  · exact ServerSpec.transport_of_decode hread
  · intro name hname hstdio hhttp
    have hunsupported : spec.transportType = some .unsupported := by
      rw [ServerSpec.transport_of_decode hread, hname, Option.map_some,
        TransportType.ofName_eq_unsupported_iff.2 ⟨hstdio, hhttp⟩]
    refine ⟨hunsupported, ?_⟩
    rw [ServerSpec.transportName?_encode, hunsupported]
    rfl

def webSocketDocument : Json := .obj [
  ("deployment", .obj [("image", .str "img:1"), ("port", .int 3000)]),
  ("transportType", .str "websocket")]

theorem server_read_back_websocket : ∃ spec,
    ServerSpec.decode webSocketDocument = .ok spec ∧ spec.transportType = some .unsupported ∧
    ServerSpec.decode spec.encode = .ok spec ∧
    ServerSpec.transportName? spec.encode = some "unsupported" := by
  obtain ⟨spec, hread⟩ : ∃ spec, ServerSpec.decode webSocketDocument = .ok spec := ⟨_, rfl⟩
  obtain ⟨hagain, -, hnames⟩ := server_read_back.2.2 webSocketDocument spec hread
  obtain ⟨htransport, hstays⟩ := hnames "websocket" rfl (by decide) (by decide)
  exact ⟨spec, hread, htransport, hagain, hstays⟩

end McpOperator
