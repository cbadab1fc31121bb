import Mathlib.Data.List.Induction
import ScriptEvents.Proofs.Registry.Precedence
/-!
A directory against the history of its writes: a name stands for the entry last written under it,
unless that was taken away since. Entries reach it from maps that are gone through in any order;
which one makes no difference, as a map has one entry under a name.
-/
namespace ScriptEvents

/-!
The order of texts is that of their bytes in UTF-8. Of two characters the one with the shorter form
has the lesser first byte, and forms of one length are the digits of the code points, highest first.
-/

namespace Text

def bytes (s : String) : List UInt8 := s.toByteArray.data.toList

theorem bytes_eq_flatMap (s : String) : bytes s = s.toList.flatMap String.utf8EncodeChar := by
  rw [bytes, ← String.utf8Encode_toList, List.utf8Encode, List.data_toByteArray]

theorem utf8EncodeChar_lt {c d : Char} (before : c < d) (rest rest' : List UInt8) :
    String.utf8EncodeChar c ++ rest < String.utf8EncodeChar d ++ rest' := by
  have lt : c.val.toNat < d.val.toNat := before
  have bound : d.val.toNat < 0x110000 := by
    have valid := d.valid
    unfold UInt32.isValidChar Nat.isValidChar at valid
    omega
  have upper (k : Nat) : c.val.toNat / k < d.val.toNat / k ∨ c.val.toNat / k = d.val.toNat / k :=
    Nat.lt_or_eq_of_le (Nat.div_le_div_right (Nat.le_of_lt lt))
  unfold String.utf8EncodeChar
  generalize c.val.toNat = m at *
  generalize d.val.toNat = n at *
  dsimp only
  repeat' split
  all_goals
    simp only [List.cons_append, List.nil_append, List.cons_lt_cons_iff, UInt8.lt_iff_toNat_lt,
      ← UInt8.toNat_inj, UInt8.toNat_ofNat']
  -- What is left after this are two forms of four bytes, to be compared digit by digit.
  all_goals try omega
  obtain lt₁ | eq₁ := upper 0x40000
  · exact .inl (by omega)
  refine .inr ⟨by rw [eq₁], ?_⟩
  obtain lt₂ | eq₂ := upper 0x1000
  · exact .inl (by omega)
  refine .inr ⟨by rw [eq₂], ?_⟩
  obtain lt₃ | eq₃ := upper 0x40
  · exact .inl (by omega)
  exact .inr ⟨by rw [eq₃], .inl (by omega)⟩

theorem flatMap_utf8EncodeChar_lt {cs ds : List Char} (before : cs < ds) :
    cs.flatMap String.utf8EncodeChar < ds.flatMap String.utf8EncodeChar := by
  induction before with
  | @nil d ds =>
    obtain ⟨byte, rest, form⟩ := List.exists_cons_of_ne_nil (String.utf8EncodeChar_ne_nil (c := d))
    rw [List.flatMap_cons, form]
    exact .nil
  | rel before => simpa only [List.flatMap_cons] using utf8EncodeChar_lt before _ _
  | cons _ ih => simpa only [List.flatMap_cons] using List.append_left_lt ih

theorem bytes_lt {s t : String} (before : s < t) : bytes s < bytes t := by
  rw [bytes_eq_flatMap, bytes_eq_flatMap]
  exact flatMap_utf8EncodeChar_lt (String.lt_iff.1 before)

theorem bytes_inj {s t : String} : bytes s = bytes t ↔ s = t := by
  rw [bytes, bytes, Array.toList_inj]
  exact ⟨fun h => String.toByteArray_inj.1 (ByteArray.ext h), fun h => h ▸ rfl⟩

theorem mergeSort_eq {texts sorted : List String} (same : texts.Perm sorted)
    (ascending : sorted.Pairwise fun s t => bytes s < bytes t) :
    texts.mergeSort (fun s t => decide (bytes s ≤ bytes t)) = sorted := by
  have pairwise : (texts.mergeSort fun s t => decide (bytes s ≤ bytes t)).Pairwise
      fun s t => bytes s ≤ bytes t := by
    refine (List.pairwise_mergeSort (fun s t u => ?_) (fun s t => ?_) texts).imp of_decide_eq_true
    · simpa using List.le_trans
    · simpa using List.le_total _ _
  exact ((List.mergeSort_perm texts _).trans same).eq_of_pairwise
    (fun s t _ _ le ge => bytes_inj.1 (List.le_antisymm le ge)) pairwise
    (ascending.imp List.le_of_lt)

end Text

namespace Dictionary

variable {α : Type}

theorem lookup_eq_of_perm {entries others : List (String × α)} (order : entries.Perm others)
    (distinct : (entries.map Prod.fst).Nodup) (name : String) :
    entries.lookup name = others.lookup name := by
  induction order with
  | nil => rfl
  | cons e _ ih =>
    rw [List.map_cons, List.nodup_cons] at distinct
    rw [lookup_cons_ite, lookup_cons_ite, ih distinct.2]
  | swap e e' rest =>
    rw [List.map_cons, List.nodup_cons, List.map_cons, List.mem_cons, not_or] at distinct
    rw [lookup_cons_ite, lookup_cons_ite, lookup_cons_ite, lookup_cons_ite]
    split
    next h => rw [if_neg fun h' => distinct.1.1 (h.symm.trans h')]
    next => rfl
  | trans first _ ih ih' => rw [ih distinct, ih' ((first.map _).nodup_iff.1 distinct)]

theorem nodup_keys (d : Dictionary α) : d.keys.Nodup :=
  d.ascending.imp String.ne_of_lt

theorem lookup_of_perm {d : Dictionary α} {order : List (String × α)} (same : order.Perm d.entries)
    (name : String) : order.lookup name = d.find? name :=
  lookup_eq_of_perm same ((same.map _).nodup_iff.2 d.nodup_keys) name

theorem mem_keys_iff {d : Dictionary α} {name : String} :
    name ∈ d.keys ↔ ∃ value, d.find? name = some value := by
  rw [← Option.isSome_iff_exists, find?, List.lookup_isSome_iff, keys, List.mem_map]
  simp only [beq_iff_eq, @eq_comm _ name]

theorem find?_insertAll (d : Dictionary α) (entries : List (String × α)) (name : String) :
    (d.insertAll entries).find? name = (entries.reverse.lookup name).or (d.find? name) := by
  induction entries generalizing d with
  | nil => rfl
  | cons e rest ih =>
    obtain ⟨other, value⟩ := e
    change ((d.insert other value).insertAll rest).find? name = _
    rw [ih, find?_insert, List.reverse_cons, List.lookup_append, Option.or_assoc, lookup_cons_ite]
    split <;> rfl

theorem find?_insertAll_of_perm (d : Dictionary α) {other : Dictionary α} {order : List (String × α)}
    (same : order.Perm other.entries) (name : String) :
    (d.insertAll order).find? name = (other.find? name).or (d.find? name) := by
  rw [find?_insertAll, lookup_of_perm ((List.reverse_perm order).trans same)]

theorem find?_ofList (entries : List (String × α)) (name : String) :
    (ofList entries).find? name = entries.reverse.lookup name := by
  rw [ofList, find?_insertAll]
  exact Option.or_none

theorem ofList_entries (d : Dictionary α) : ofList d.entries = d := by
  ext name : 1
  rw [find?_ofList, lookup_of_perm (List.reverse_perm d.entries)]

end Dictionary

theorem DirectiveLibrary.insertAll_directives (l : DirectiveLibrary)
    (entries : List (String × DirectiveEntry)) :
    l.insertAll entries = { l with directives := l.directives.insertAll entries } := by
  induction entries generalizing l with
  | nil => rfl
  | cons e rest ih => exact ih (l.insert e.1 e.2)

namespace DirectiveBundle

inductive Holds : DirectiveBundle → List (String × DirectiveEntry) → Prop where
  | library (name : String) (entries : List (String × DirectiveEntry)) :
      Holds (.library (.insertAll { name } entries)) entries
  | map {directives : Dictionary DirectiveEntry} {entries : List (String × DirectiveEntry)}
      (listed : entries.Perm directives.entries) : Holds (.map directives) entries
  | pairs (entries : List (String × DirectiveEntry)) : Holds (.pairs entries) entries

theorem exists_holds (bundle : DirectiveBundle) : ∃ entries, bundle.Holds entries := by
  cases bundle with
  | library l =>
    have built : l = .insertAll { name := l.name } l.directives.entries := by
      rw [DirectiveLibrary.insertAll_directives]
      exact congrArg (DirectiveLibrary.mk l.name) (Dictionary.ofList_entries _).symm
    rw [built]
    exact ⟨_, .library _ _⟩
  | map directives => exact ⟨_, .map (.refl _)⟩
  | pairs entries => exact ⟨_, .pairs entries⟩

theorem Holds.find? {bundle : DirectiveBundle} {entries : List (String × DirectiveEntry)}
    (holds : bundle.Holds entries) (name : String) :
    bundle.directives.find? name = entries.reverse.lookup name := by
  cases holds with
  | library title =>
    rw [directives, DirectiveLibrary.insertAll_directives]
    exact Dictionary.find?_ofList entries name
  | map listed => exact (Dictionary.lookup_of_perm ((List.reverse_perm _).trans listed) name).symm
  | pairs => exact Dictionary.find?_ofList entries name

end DirectiveBundle

namespace Directory

abbrev Write := String × Option DirectiveEntry

def write (d : Directory) : Write → Directory
  | (name, some entry) => d.insert name entry
  | (name, none) => d.erase name

theorem find?_write (d : Directory) (w : Write) (name : String) :
    (d.write w).find? name = if name = w.1 then w.2 else d.find? name := by
  obtain ⟨other, _ | entry⟩ := w
  · exact Dictionary.find?_erase d other name
  · exact Dictionary.find?_insert d other entry name

theorem find?_foldl_write (d : Directory) (writes : List Write) (name : String) :
    (writes.foldl write d).find? name = (writes.reverse.lookup name).getD (d.find? name) := by
  induction writes generalizing d with
  | nil => rfl
  | cons w rest ih =>
    rw [List.foldl_cons, ih, find?_write, List.reverse_cons, List.lookup_append,
      Dictionary.lookup_cons_ite]
    cases rest.reverse.lookup name with
    | some _ => rfl
    | none => split <;> rfl

def LastWrite (writes : List Write) (name : String) (entry : Option DirectiveEntry) : Prop :=
  ∃ before after, writes = before ++ (name, entry) :: after ∧ name ∉ after.map Prod.fst

theorem lookup_reverse_eq_some_iff {writes : List Write} {name : String}
    {entry : Option DirectiveEntry} :
    writes.reverse.lookup name = some entry ↔ LastWrite writes name entry := by
  simp only [List.lookup_eq_some_iff, LastWrite, List.mem_map, not_exists, not_and, bne_iff_ne]
  constructor
  · rintro ⟨after, before, parts, others⟩
    refine ⟨before.reverse, after.reverse, ?_, fun w mem => ?_⟩
    · rw [← List.reverse_reverse writes, parts]
      simp
    · exact (others w (List.mem_reverse.1 mem)).symm
  · rintro ⟨before, after, rfl, others⟩
    exact ⟨after.reverse, before.reverse, by simp,
      fun w mem => (others w (List.mem_reverse.1 mem) ·.symm)⟩

theorem lookup_reverse_eq_none_iff {writes : List Write} {name : String} :
    writes.reverse.lookup name = none ↔ name ∉ writes.map Prod.fst := by
  simp only [List.lookup_eq_none_iff, List.mem_reverse, List.mem_map, not_exists, not_and,
    bne_iff_ne, ne_eq, @eq_comm _ name]

inductive Change.Writes : Change → List Write → Prop where
  | add (name : String) (entry : DirectiveEntry) : Writes (.add name entry) [(name, some entry)]
  | addBundle {bundle : DirectiveBundle} {entries : List (String × DirectiveEntry)}
      (holds : bundle.Holds entries) :
      Writes (.addBundle bundle) (entries.map fun (name, entry) => (name, some entry))
  | remove (name : String) : Writes (.remove name) [(name, none)]

inductive Leads (d : Directory) : Change → Directory → Prop where
  | add (name : String) (entry : DirectiveEntry) : Leads d (.add name entry) (d.insert name entry)
  | addBundle {bundle : DirectiveBundle} {order : List (String × DirectiveEntry)}
      (same : order.Perm bundle.directives.entries) :
      Leads d (.addBundle bundle) (order.foldl (fun d (name, entry) => d.apply (.add name entry)) d)
  | remove (name : String) : Leads d (.remove name) (d.remove name).2

inductive History : List Change → List Write → Directory → Prop where
  | empty : History [] [] .empty
  | next {changes : List Change} {change : Change} {writes latest : List Write} {d d' : Directory}
      (history : History changes writes d) (written : change.Writes latest)
      (leads : d.Leads change d') : History (changes ++ [change]) (writes ++ latest) d'

theorem insertAll_eq_foldl_write (d : Directory) (entries : List (String × DirectiveEntry)) :
    d.insertAll entries =
      (entries.map fun (name, entry) => ((name, some entry) : Write)).foldl write d := by
  rw [List.foldl_map]
  rfl

theorem Leads.eq_apply {d d' : Directory} {change : Change} (leads : d.Leads change d') :
    d' = d.apply change := by
  cases leads with
  | add => rfl
  | addBundle same =>
    ext name : 1
    exact (Dictionary.find?_insertAll_of_perm d same name).trans
      (Dictionary.find?_insertAll_of_perm d (.refl _) name).symm
  | remove => rfl

theorem apply_eq_foldl_write (d : Directory) {change : Change} {latest : List Write}
    (written : change.Writes latest) : d.apply change = latest.foldl write d := by
  cases written with
  | add => rfl
  | @addBundle bundle entries holds =>
    ext name : 1
    rw [apply, Dictionary.find?_insertAll_of_perm d (.refl _), holds.find?,
      ← insertAll_eq_foldl_write, Dictionary.find?_insertAll]
  | remove => rfl

namespace History

variable {changes : List Change} {writes : List Write} {d : Directory}

theorem eq_foldl_apply (history : History changes writes d) : d = changes.foldl apply .empty := by
  induction history with
  | empty => rfl
  | next _ _ leads ih => rw [List.foldl_append, ← ih, leads.eq_apply]; rfl

theorem eq_foldl_write (history : History changes writes d) : d = writes.foldl write .empty := by
  induction history with
  | empty => rfl
  | next _ written leads ih =>
    rw [List.foldl_append, ← ih, leads.eq_apply, apply_eq_foldl_write _ written]

theorem find? (history : History changes writes d) (name : String) :
    d.find? name = (writes.reverse.lookup name).join := by
  rw [history.eq_foldl_write, find?_foldl_write]
  cases writes.reverse.lookup name <;> rfl

theorem exists_of_changes (changes : List Change) : ∃ writes d, History changes writes d := by
  induction changes using List.reverseRecOn with
  | nil => exact ⟨_, _, .empty⟩
  | append_singleton changes change ih =>
    obtain ⟨writes, d, history⟩ := ih
    cases change with
    | add name entry => exact ⟨_, _, history.next (.add name entry) (.add name entry)⟩
    | addBundle bundle =>
      obtain ⟨entries, holds⟩ := bundle.exists_holds
      exact ⟨_, _, history.next (.addBundle holds) (.addBundle (.refl _))⟩
    | remove name => exact ⟨_, _, history.next (.remove name) (.remove name)⟩

end History

structure TellsLastWrite (d : Directory) (writes : List Write) : Prop where
  found {v : Value} {name : String} (spelled : v.Spells name) (entry : DirectiveEntry) :
    d.resolve v = .ok (some entry) ↔ LastWrite writes name (some entry)
  unknown {v : Value} {name : String} (spelled : v.Spells name) :
    d.resolve v = .ok none ↔ LastWrite writes name none ∨ name ∉ writes.map Prod.fst
  removed {v : Value} {name : String} (spelled : v.Spells name) :
    d.resolve v = .ok (d.remove name).1
  names (name : String) : name ∈ d.keys ↔ ∃ entry, d.resolve (.string name) = .ok (some entry)
  ascending : d.keys.Pairwise fun a b => Text.bytes a < Text.bytes b
  sorted {listed : List String} (same : listed.Perm d.keys) :
    listed.mergeSort (fun a b => decide (Text.bytes a ≤ Text.bytes b)) = d.keys
  size : d.size = d.keys.length

theorem resolve_of_spells {v : Value} {name : String} (d : Directory) (spelled : v.Spells name) :
    d.resolve v = .ok (d.find? name) := by
  rw [resolve, Value.key?_eq_some_iff.2 spelled]

theorem History.tellsLastWrite {changes : List Change} {writes : List Write} {d : Directory}
    (history : History changes writes d) : d.TellsLastWrite writes where
  found spelled entry := by
    rw [resolve_of_spells d spelled, history.find?, Except.ok.injEq, Option.join_eq_some_iff,
      lookup_reverse_eq_some_iff]
  unknown spelled := by
    rw [resolve_of_spells d spelled, history.find?, Except.ok.injEq, Option.join_eq_none_iff,
      lookup_reverse_eq_some_iff, lookup_reverse_eq_none_iff, or_comm]
  removed := resolve_of_spells d
  names name := by
    rw [Dictionary.mem_keys_iff]
    simp only [resolve_of_spells d (.inl rfl : Value.Spells (.string name) name), Except.ok.injEq]
  ascending := d.ascending.imp Text.bytes_lt
  sorted same := Text.mergeSort_eq same (d.ascending.imp Text.bytes_lt)
  size := (List.length_map _).symm

/-- Whatever the changes and the order in which bundles are gone through, one directory comes of
them, and it tells of each name what was last written under it. -/
theorem tells_last_write (changes : List Change) :
    (∃ writes d, History changes writes d) ∧
      ∀ writes d, History changes writes d →
        d = changes.foldl apply .empty ∧ d.TellsLastWrite writes :=
  ⟨History.exists_of_changes changes,
    fun _ _ history => ⟨history.eq_foldl_apply, history.tellsLastWrite⟩⟩

theorem tells_last_write_timer :
    ∃ d, History
        [.add "timer" .ignore,
          .addBundle (.library (.insertAll { name := "timers" }
            [("timer", .directive ⟨1⟩), ("timer", .directive ⟨2⟩)])),
          .addBundle (.pairs [("fs", .ignore), ("socket", .ignore), ("fs", .directive ⟨3⟩)]),
          .remove "socket"]
        [("timer", some .ignore), ("timer", some (.directive ⟨1⟩)),
          ("timer", some (.directive ⟨2⟩)), ("fs", some .ignore), ("socket", some .ignore),
          ("fs", some (.directive ⟨3⟩)), ("socket", none)] d ∧
      d.resolve (.symbol "timer") = .ok (some (.directive ⟨2⟩)) ∧
      d.resolve (.string "fs") = .ok (some (.directive ⟨3⟩)) ∧
      d.resolve (.string "socket") = .ok none := by
  -- The pairs are gone through backwards.
  have history := (((History.empty.next (.add "timer" .ignore) (.add "timer" .ignore)).next
    (.addBundle (.library "timers" [("timer", .directive ⟨1⟩), ("timer", .directive ⟨2⟩)]))
    (.addBundle (.refl _))).next
    (.addBundle (.pairs [("fs", .ignore), ("socket", .ignore), ("fs", .directive ⟨3⟩)]))
    (.addBundle (.swap ("fs", DirectiveEntry.directive ⟨3⟩) ("socket", .ignore) []))).next
    (.remove "socket") (.remove "socket")
  have tells := ((tells_last_write _).2 _ _ history).2
  exact ⟨_, history,
    (tells.found (.inr rfl) _).2 ⟨[_, _], [_, _, _, _], rfl, by decide⟩,
    (tells.found (.inl rfl) _).2 ⟨[_, _, _, _, _], [_], rfl, by decide⟩,
    (tells.unknown (.inl rfl)).2 (.inl ⟨[_, _, _, _, _, _], [], rfl, by decide⟩)⟩

end Directory

end ScriptEvents
