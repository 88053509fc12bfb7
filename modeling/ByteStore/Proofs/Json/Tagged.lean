import ByteStore.Json.Tagged
import ByteStore.Proofs.Json.Record

/-!
# Reading tagged values

Members are kept as they are read until the one that names the variant has been found, wherever it
stands. So a value whose parts make the same thing in any order can be written in any order
(`parse_of_written`).
-/

namespace ByteStore.Json

namespace Tagged

variable {τ α : Type} {t : Tagged τ} {v : τ} {name : String} {ms : List (String × Value)}

lemma gives_variantReader (hv : t.variant name = .ok v) :
    t.variantReader.Gives (.string name) v :=
  Reader.gives_string (Reader.reads_stringWith hv)

lemma field?_key (t : Tagged τ) : t.objectRecord.field? t.key = some
    ⟨t.key, fun d => d.variant.isSome,
      t.variantReader.map fun v d => { d with variant := some v }⟩ := by
  simp [Record.field?, objectRecord]

lemma field?_of_ne (hname : name ≠ t.key) : t.objectRecord.field? name = none := by
  simp [Record.field?, objectRecord, hname.symm]

/-- Members that do not name the variant are kept, the latest first. -/
lemma enters_kept (hms : ∀ m ∈ ms, m.1 ≠ t.key ∧ ∃ s, m.2 = .string s) (d : Draft τ) :
    t.objectRecord.Enters Reader.Gives d ms ⟨d.variant, ms.reverse ++ d.members⟩ := by
  induction ms generalizing d with
  | nil => exact .nil d
  | cons m ms ih =>
    rw [List.forall_mem_cons] at hms
    obtain ⟨⟨hname, s, hs⟩, hms⟩ := hms
    obtain ⟨name, w⟩ := m
    obtain rfl : w = .string s := hs
    have hgives := Reader.gives_string (Reader.reads_value partLimit s)
    rw [List.reverse_cons, List.append_assoc]
    exact .other (field?_of_ne hname) (Reader.lawful_gives.map _ hgives) (ih hms _)

/--
A value is read in whatever way it is written, if its parts are strings and make the same thing in
any order.
-/
theorem parse_of_written {make : τ → Parts → Except Cause α} {a : α} {text : List Char}
    (hv : t.variant name = .ok v) (hms : ∀ m ∈ ms, m.1 ≠ t.key ∧ ∃ s, m.2 = .string s)
    (hmake : ∀ ms', ms.Perm ms' → make v (.members ms') = .ok a)
    (htext : (Value.object ((t.key, .string name) :: ms)).Written text) :
    t.parse make (String.ofList text) = .ok a := by
  obtain ⟨tokens, htokens, hspelled⟩ := htext
  cases htokens with
  | @object _ ms' rows hperm hrows =>
    -- The member that names the variant stands between others.
    obtain ⟨front, back, rfl⟩ := List.append_of_mem (hperm.subset List.mem_cons_self)
    have hperm' : ms.Perm (front ++ back) := (hperm.trans List.perm_middle).cons_inv
    have hkept : ∀ m ∈ front ++ back, m.1 ≠ t.key ∧ ∃ s, m.2 = .string s :=
      fun m hm => hms m (hperm'.symm.subset hm)
    rw [List.forall_mem_append] at hkept
    have henters : t.objectRecord.Enters Reader.Gives ⟨none, []⟩
        (front ++ (t.key, .string name) :: back) ⟨some v, back.reverse ++ (front.reverse ++ [])⟩ :=
      (enters_kept hkept.1 _).append
        (.field t.field?_key rfl (Reader.lawful_gives.map _ (gives_variantReader hv))
          (enters_kept hkept.2 _))
    have htokens := tokens_of_spelled hspelled
    have hrun := Record.reads_reader (henters.reads hrows) rfl _ [] htokens
    rw [List.append_nil] at hrun
    have hreader : t.reader.run (lexemes text) = .ok ((v, .members (front ++ back)), []) := by
      obtain ⟨l, ls, hl, hbrace, -⟩ := List.map_eq_cons_iff.1 htokens
      rw [hl] at hrun ⊢
      simpa only [reader, hbrace, List.append_nil, List.reverse_append, List.reverse_reverse]
        using hrun
    simp only [Tagged.parse, String.toList_ofList, hreader, hmake _ hperm', atEnd]

end Tagged

end ByteStore.Json
