import Tabular.Proofs.Except
import Tabular.Proofs.Sql.Naming

namespace Tabular.TableMapping

open Sql (namesIn? namesIn?_append namesIn?_end namesIn?_front namesIn?_join namesIn?_list
  namesIn?_placeholders namesIn?_quoteIdentifier)
open Sql.Lexer (isNameless)

variable {t : TableMapping} {values : List Value} {stmt : Statement}

def Declares (t : TableMapping) (name : String) : Prop :=
  name = t.tableName ∨ ∃ c ∈ t.columns, name = c.name

instance (t : TableMapping) (name : String) : Decidable (t.Declares name) :=
  inferInstanceAs (Decidable (_ ∨ ∃ c ∈ _, _))

theorem declares_of_columns {cs : List Column} (h : ∀ c ∈ cs, c ∈ t.columns) :
    ∀ name ∈ t.tableName :: cs.map Column.name, t.Declares name := by
  intro name hn
  rcases List.mem_cons.1 hn with rfl | hn
  · exact .inl rfl
  · obtain ⟨c, hc, rfl⟩ := List.mem_map.1 hn
    exact .inr ⟨c, h c hc, rfl⟩

theorem mem_columns_of_mem_keys {c : Column} (h : c ∈ t.keys) : c ∈ t.columns :=
  List.mem_of_mem_filter h

theorem keys_of_key {c : Column} (h : t.key = .ok c) : t.keys = [c] := by
  unfold key at h
  split at h <;> cases h
  assumption

theorem namesIn?_keyTest (c : Column) :
    namesIn? (c.quotedName ++ " = ?").toList = some [c.name] := by
  have test : isNameless " = ?".toList := by decide
  rw [String.toList_append]
  exact namesIn?_end test rfl (namesIn?_quoteIdentifier c.name)

theorem namesIn?_columns (cs : List Column) :
    namesIn? (", ".intercalate (cs.map Column.quotedName)).toList = some (cs.map Column.name) := by
  have comma : isNameless ", ".toList := by decide
  have column (c : Column) : namesIn? c.quotedName.toList = some [c.name] :=
    namesIn?_quoteIdentifier c.name
  exact namesIn?_list ", " comma rfl column cs

theorem namesIn?_keyTests (cs : List Column) :
    namesIn? (" and ".intercalate (cs.map fun c => c.quotedName ++ " = ?")).toList =
      some (cs.map Column.name) := by
  have conjunction : isNameless " and ".toList := by decide
  exact namesIn?_list " and " conjunction rfl namesIn?_keyTest cs

theorem namesIn?_table {front : String} (hf : isNameless front.toList) (t : TableMapping) :
    namesIn? (front ++ t.quotedName).toList = some [t.tableName] := by
  rw [String.toList_append]
  exact namesIn?_front hf (namesIn?_quoteIdentifier t.tableName)

theorem insert_names (h : t.insert values = .ok stmt) :
    namesIn? stmt.sql.toList = some (t.tableName :: t.inserted.map Column.name) := by
  obtain ⟨args, _, h⟩ := bind_eq_ok.1 h
  cases h
  have table : namesIn? ("insert into " ++ t.quotedName).toList = some [t.tableName] :=
    namesIn?_table (by decide) t
  rw [String.toList_append]
  split
  · next hn =>
    have rest : namesIn? " default values".toList = some [] := by decide
    rw [List.isEmpty_iff.1 hn]
    exact namesIn?_append table rest rfl
  · have opening : isNameless " (".toList := by decide
    have middle : isNameless ") values (".toList := by decide
    have closing : isNameless ")".toList := by decide
    have values := namesIn?_end closing rfl
      (namesIn?_placeholders ", " (by decide) rfl t.inserted.length)
    have filled := namesIn?_join middle rfl (namesIn?_columns t.inserted) values
    simpa using namesIn?_join opening rfl table filled

theorem keyFilter_eq_ok (h : t.keyFilter values = .ok stmt) :
    t.keys.isEmpty = false ∧ stmt.sql = " and ".intercalate
      ((t.keys.take values.length).map fun c => c.quotedName ++ " = ?") := by
  by_cases hk : t.keys.isEmpty
  · rw [keyFilter, if_pos hk] at h
    cases h
  rw [keyFilter, if_neg hk] at h
  by_cases hv : values.isEmpty || t.keys.length < values.length
  · rw [if_pos hv] at h
    cases h
  · rw [if_neg hv] at h
    obtain ⟨args, _, h⟩ := bind_eq_ok.1 h
    cases h
    exact ⟨by simpa using hk, rfl⟩

theorem getByKeys_names (h : t.getByKeys values = .ok stmt) :
    namesIn? stmt.sql.toList = some (t.tableName :: t.keys.map Column.name) := by
  by_cases hc : !t.keys.isEmpty && values.length != t.keys.length
  · rw [getByKeys, if_pos hc] at h
    cases h
  rw [getByKeys, if_neg hc] at h
  obtain ⟨filter, hf, h⟩ := bind_eq_ok.1 h
  cases h
  obtain ⟨hk, hsql⟩ := keyFilter_eq_ok hf
  have all : t.keys.take values.length = t.keys := by
    rw [hk] at hc
    exact List.take_of_length_le (by simp at hc; omega)
  have table : namesIn? ("select * from " ++ t.quotedName).toList = some [t.tableName] :=
    namesIn?_table (by decide) t
  have condition : isNameless " where ".toList := by decide
  rw [all] at hsql
  simpa [hsql] using namesIn?_join condition rfl table (namesIn?_keyTests t.keys)

theorem deleteByKeys_names (h : t.deleteByKeys values = .ok stmt) :
    namesIn? stmt.sql.toList =
      some (t.tableName :: (t.keys.take values.length).map Column.name) := by
  obtain ⟨filter, hf, h⟩ := bind_eq_ok.1 h
  cases h
  have table : namesIn? ("delete from " ++ t.quotedName).toList = some [t.tableName] :=
    namesIn?_table (by decide) t
  have condition : isNameless " where ".toList := by decide
  simpa [(keyFilter_eq_ok hf).2] using
    namesIn?_join condition rfl table (namesIn?_keyTests (t.keys.take values.length))

theorem deleteIn_names (h : t.deleteIn values = .ok stmt) :
    namesIn? stmt.sql.toList = some (t.tableName :: t.keys.map Column.name) := by
  obtain ⟨key, hk, h⟩ := bind_eq_ok.1 h
  obtain ⟨args, _, h⟩ := bind_eq_ok.1 h
  cases h
  have table : namesIn? ("delete from " ++ t.quotedName).toList = some [t.tableName] :=
    namesIn?_table (by decide) t
  have condition : isNameless " where ".toList := by decide
  have opening : isNameless " in (".toList := by decide
  have closing : isNameless ")".toList := by decide
  have values := namesIn?_end closing rfl (namesIn?_placeholders "," (by decide) rfl values.length)
  have test := namesIn?_join opening rfl (namesIn?_quoteIdentifier key.name) values
  simpa [Column.quotedName, keys_of_key hk] using namesIn?_join condition rfl table test

theorem deleteAll_names (t : TableMapping) :
    namesIn? t.deleteAll.sql.toList = some [t.tableName] :=
  namesIn?_table (by decide) t

inductive Writes (t : TableMapping) : Statement → Prop
  | insert {values : List Value} {stmt : Statement} : t.insert values = .ok stmt → Writes t stmt
  | get {values : List Value} {stmt : Statement} : t.getByKeys values = .ok stmt → Writes t stmt
  | delete {values : List Value} {stmt : Statement} :
      t.deleteByKeys values = .ok stmt → Writes t stmt
  | deleteIn {values : List Value} {stmt : Statement} : t.deleteIn values = .ok stmt → Writes t stmt
  | deleteAll : Writes t t.deleteAll

theorem Writes.names (h : t.Writes stmt) : ∃ cs : List Column, (∀ c ∈ cs, c ∈ t.columns) ∧
    namesIn? stmt.sql.toList = some (t.tableName :: cs.map Column.name) := by
  cases h with
  | insert h => exact ⟨t.inserted, fun c hc => List.mem_of_mem_filter hc, insert_names h⟩
  | get h => exact ⟨t.keys, fun c => mem_columns_of_mem_keys, getByKeys_names h⟩
  | delete h =>
    exact ⟨_, fun c hc => mem_columns_of_mem_keys (List.mem_of_mem_take hc), deleteByKeys_names h⟩
  | deleteIn h => exact ⟨t.keys, fun c => mem_columns_of_mem_keys, deleteIn_names h⟩
  | deleteAll => exact ⟨[], by simp, t.deleteAll_names⟩

end Tabular.TableMapping
