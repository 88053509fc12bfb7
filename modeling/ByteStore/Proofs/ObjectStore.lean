import ByteStore.ObjectStore
import ByteStore.Proofs.Json.Tagged

/-!
# Documents of object stores

The document of an object store is read back to the same object store, also if its members are in
another order or its text is spelled in another way (`parse_of_written`).
-/

namespace ByteStore

open Json

/-! ### Buckets -/

namespace Bucket

lemma independent_record {ρ : Type → Type} [Source ρ] {π : Type}
    {gives : ∀ {α : Type}, ρ α → π → α → Prop} (hmap : Record.ReadsThrough gives) :
    (record (ρ := ρ)).Independent gives := by
  refine Record.independent_of_maps hmap (.cons (.intro _ _ fun _ _ => rfl)
    (.cons (.intro _ _ fun _ _ => rfl) (.cons (.intro _ _ fun _ _ => rfl) .nil))) ?_
    fun _ => ⟨_, rfl⟩
  simp [Record.Part.apart_iff]

variable {ρ : Type → Type} [Source ρ] {gives : ∀ {α : Type}, ρ α → Value → α → Prop}

/-- The members of a bucket are entered as they are; an endpoint that is left out stays unset. -/
lemma enters_record (hlawful : Source.Lawful gives) (b : Bucket) :
    (record (ρ := ρ)).Enters gives ⟨none, none, none⟩ (ObjectStore.bucket b).members
      ⟨some b.name, some b.region, b.endpoint.map some⟩ := by
  obtain ⟨name, region, endpoint⟩ := b
  refine .field rfl rfl (hlawful.map _ (hlawful.string name)) ?_
  refine .field rfl rfl (hlawful.map _ (hlawful.string region)) ?_
  cases endpoint with
  | none => exact .nil _
  | some endpoint =>
    have hendpoint := hlawful.nullable Value.noConfusion (hlawful.string endpoint)
    exact .field rfl rfl (hlawful.map _ hendpoint) (.nil _)

lemma finish_record (b : Bucket) :
    (record (ρ := ρ)).finish ⟨some b.name, some b.region, b.endpoint.map some⟩ = .ok b := by
  obtain ⟨name, region, endpoint⟩ := b
  cases endpoint <;> rfl

/-- A bucket is read off its members, in whatever way they are written. -/
lemma gives_reader (b : Bucket) :
    record.reader.Gives (.object (ObjectStore.bucket b).members) b :=
  have hlawful := Reader.lawful_gives
  Record.gives_reader (independent_record hlawful.exists_of_map) (enters_record hlawful b)
    (finish_record b)

end Bucket

namespace ObjectStore

/-! ### Parts -/

/-- The members of an object store make it up again, in any order. -/
lemma ofParts_members (c : ObjectStore) {ms : List (String × Value)} (hperm : c.members.Perm ms) :
    ofParts c.kind (.members ms) = .ok c := by
  cases c with
  | memory => rfl
  | directory path =>
    obtain rfl := List.perm_singleton.1 hperm.symm
    rfl
  | bucket b =>
    have hlawful := Decoder.lawful_gives
    have hindependent := Bucket.independent_record hlawful.exists_of_map
    have henters := (Bucket.enters_record hlawful b).perm hindependent hperm
    rw [kind, ofParts, henters.ofParts_members (Bucket.finish_record b)]
    rfl

/-! ### Documents -/

lemma variant_name (kind : Kind) : tagged.variant kind.name = .ok kind := by cases kind <;> rfl

lemma forall_mem_members (c : ObjectStore) :
    ∀ m ∈ c.members, m.1 ≠ tagged.key ∧ ∃ s, m.2 = .string s := by
  rcases c with _ | path | ⟨name, region, _ | endpoint⟩ <;> simp [members, tagged]

lemma textual_members (c : ObjectStore) : (Value.object c.members).Textual := by
  refine .object fun m hm => ?_
  obtain ⟨-, s, hs⟩ := c.forall_mem_members m hm
  rw [hs]
  exact .string s

/-- An object store is read back in whatever way its value is written. -/
theorem parse_of_written (c : ObjectStore) {text : List Char} (h : c.toValue.Written text) :
    parse (String.ofList text) = .ok c :=
  Tagged.parse_of_written (variant_name c.kind) c.forall_mem_members
    (fun _ hperm => c.ofParts_members hperm) h

/--
The document of an object store is read back to the same object store, in any order of its members.
So different object stores have different documents.
-/
theorem parse_toDocument (c : ObjectStore) :
    parse c.toDocument = .ok c ∧
      (∀ ms : List (String × Value),
        ms.Perm ((tagged.key, .string c.kind.name) :: c.members) →
          parse (Value.object ms).toDocument = .ok c) ∧
      ∀ c', c'.toDocument = c.toDocument → c' = c := by
  have hparse (c : ObjectStore) (ms : List (String × Value))
      (hperm : ms.Perm ((tagged.key, .string c.kind.name) :: c.members)) :
      parse (Value.object ms).toDocument = .ok c := by
    have htextual : c.toValue.Textual := c.textual_members.cons _ (.string _)
    exact c.parse_of_written ((htextual.perm hperm.symm).written_render.perm hperm)
  have hself (c : ObjectStore) : parse c.toDocument = .ok c := hparse c _ (List.Perm.refl _)
  refine ⟨hself c, hparse c, fun c' hdocument => ?_⟩
  have hc' := hself c'
  rw [hdocument, hself c] at hc'
  exact (Except.ok.inj hc').symm

theorem parse_toDocument_reversed :
    parse "\x7b\"endpoint\":\"\\\"\\u0001\",\"region\":\"\",\"bucket\":\"a\\\\b\",\"type\":\"Aws\"\x7d"
      = .ok (.bucket ⟨"a\\b", "", some "\"\x01"⟩) := by
  have hreversed :=
    (parse_toDocument (.bucket ⟨"a\\b", "", some "\"\x01"⟩)).2.1 _ (List.reverse_perm _)
  exact hreversed

end ObjectStore

end ByteStore
