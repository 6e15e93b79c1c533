import TrustTrial.Proofs.Listings
import TrustTrial.Proofs.Tables

/-!
# TrustTrial.Proofs.Catalogue

The target table read back. It is printed in columns and read by its first and last words, so every
published name is found once, whatever its length and even if it looks like the header, and the set
of its rows tells the published contents apart (`targetTable_told`).
-/

namespace TrustTrial
namespace Notary

open Text
open Disk

/-! ## Rows -/

/-- Rows of targets are words in columns. -/
theorem wordChars_targetRow {name digest size role : String} (hname : Wordy name)
    (hdigest : Wordy digest) (hsize : Wordy size) (hrole : Wordy role) :
    wordChars (targetRow name digest size role).toList =
      [name.toList, digest.toList, size.toList, role.toList] := by
  simp [targetRow_eq, wordChars_column, wordChars_wordy, hname, hdigest, hsize, hrole]

/-- A record as the notary makes it: its names are words, and its digests are digests. -/
structure Record.Legible (r : Record) : Prop where
  names : ∀ e ∈ r.targets.toList, Wordy e.1
  digests : ∀ e ∈ r.targets.toList, ∃ data, e.2.digest = digest data

section Records

variable {r r' : Record} {e e' : String × Target} {name line : String}

theorem wordy_digest (data : ByteArray) : Wordy (digest data) := wordy_hexadecimal 16 _

theorem Record.Legible.wordy_digest (h : r.Legible) (he : e ∈ r.targets.toList) :
    Wordy e.2.digest := by
  obtain ⟨data, hdata⟩ := h.digests e he
  rw [hdata]
  exact Notary.wordy_digest data

theorem Record.Legible.listable (h : r.Legible) : Listable r.targets :=
  fun e he => ⟨h.names e he, (h.wordy_digest he).single⟩

/-- What a trial reads of the targets of a record. -/
def catalogue (r : Record) : List TargetRow := TargetListing.read (targetTable r.targets)

theorem catalogue_eq (h : r.Legible) :
    catalogue r = TargetListing.read (lines targetHeader) ++ r.targets.toList.map targetRowOf :=
  read_targetTable h.listable

/-- The row of a target is known from its words. -/
theorem eq_of_targetLine_eq (h : r.Legible) (h' : r'.Legible) (he : e ∈ r.targets.toList)
    (he' : e' ∈ r'.targets.toList) (hline : (targetRowOf e).line = (targetRowOf e').line) :
    e = e' := by
  have htargets : Wordy "targets" := by decide
  have hwords := congrArg (fun row => wordChars row.toList) hline
  simp only [targetRowOf, wordChars_targetRow (h.names e he) (h.wordy_digest he)
    (wordy_toString e.2.size) htargets, wordChars_targetRow (h'.names e' he') (h'.wordy_digest he')
    (wordy_toString e'.2.size) htargets, List.cons.injEq, and_true] at hwords
  obtain ⟨hname, hdigest, hsize⟩ := hwords
  have hname := String.toList_injective hname
  have hdigest := String.toList_injective hdigest
  have hsize := toString_injective (String.toList_injective hsize)
  rcases e with ⟨name, digest, size⟩
  rcases e' with ⟨name', digest', size'⟩
  simp_all

/-- No row of a target is a row of the header. -/
theorem targetLine_notMem_header (e : String × Target) :
    ∀ row ∈ TargetListing.read (lines targetHeader), row.line ≠ (targetRowOf e).line := by
  intro row hrow hline
  have hrole : row.role = targetsRole := by
    obtain ⟨line, -, rfl⟩ := List.mem_map.1 hrow
    change lastWord line = targetsRole
    rw [show line = _ from hline]
    exact lastWord_targetRow (by decide) _ _ _
  have hmem := List.mem_map_of_mem (f := fun row => (row.name, row.role)) hrow
  rw [read_targetHeader, hrole] at hmem
  simp [targetsRole] at hmem

/-! ## Listings as sets of rows -/

theorem mem_lineSet {rows : List TargetRow} :
    line ∈ TargetListing.lineSet rows ↔ ∃ row ∈ rows, row.line = line := by
  rw [TargetListing.lineSet, Dict.mem_keys, Dict.contains_ofList]
  simp

/-- A target of one record is among those of another if its row is. -/
theorem mem_of_lineSet (h : r.Legible) (h' : r'.Legible)
    (hsame : TargetListing.lineSet (catalogue r) = TargetListing.lineSet (catalogue r'))
    (he : e ∈ r.targets.toList) : e ∈ r'.targets.toList := by
  have hrow : ∃ row ∈ catalogue r, row.line = (targetRowOf e).line := by
    refine ⟨targetRowOf e, ?_, rfl⟩
    rw [catalogue_eq h]
    exact List.mem_append_right _ (List.mem_map_of_mem he)
  rw [← mem_lineSet, hsame, mem_lineSet, catalogue_eq h'] at hrow
  obtain ⟨row, hrow, hline⟩ := hrow
  rcases List.mem_append.1 hrow with hheader | hrow
  · exact (targetLine_notMem_header e row hheader hline).elim
  · obtain ⟨e', he', rfl⟩ := List.mem_map.1 hrow
    rw [← eq_of_targetLine_eq h' h he' he hline]
    exact he'

/-- Records with the same listing have the same targets. -/
theorem targets_of_lineSet (h : r.Legible) (h' : r'.Legible)
    (hsame : TargetListing.lineSet (catalogue r) = TargetListing.lineSet (catalogue r')) :
    r.targets = r'.targets := by
  refine Dict.eq_of_get? fun name => Option.ext fun target => ?_
  rw [← Dict.mem_toList, ← Dict.mem_toList]
  exact ⟨mem_of_lineSet h h' hsame, mem_of_lineSet h' h hsame.symm⟩

/-! ## The table that is printed -/

open Step in
/-- A record that is loaded has been found below the server. -/
theorem steady_of_loadRecord {here : Location} {server repo : String} {d : Desk}
    (h : (Step.run (loadRecord here server repo) d).1 = .ok r) : d.disk.Steady here server := by
  cases hlook : d.disk.look here (recordPath server repo) with
  | ok node => exact Tree.steady_of_look (proper_recordName repo) hlook
  | error fault =>
    rw [loadRecord, Step.run_bind, run_present, Tree.leads, hlook] at h
    cases h

/-- The targets of a record are printed as a table. -/
theorem run_list_told {o : Office} {server trustDir repo : String} {d e : Desk}
    (ht : d.disk.Regular) (hload : (Step.run (loadRecord o.here server repo) d).1 = .ok r)
    (hsync : Step.run (sync o.here trustDir repo r) d = (.ok (), e))
    (hcurrent : isStale d.disk o.here server trustDir = false) :
    Step.run (list o server trustDir repo) d =
      (.ok (), { e with output := d.output ++ (targetTable r.targets).toUTF8 }) := by
  obtain ⟨result, hreads⟩ := reads_loadRecord o.here server repo d.disk
  have hserver := steady_of_loadRecord hload
  rw [hreads d rfl] at hload
  obtain rfl : result = .ok r := hload
  exact run_list_synced ht hserver hcurrent (hreads d rfl) hsync

/-- A name is found in the table if it is published, or one of the words of the header. -/
theorem hasName_catalogue (h : r.Legible) (name : String) :
    TargetListing.hasName name (catalogue r) = true ↔
      r.targets.contains name = true ∨ name ∈ ["NAME", "----"] := by
  have hheader : (TargetListing.read (lines targetHeader)).any (fun row => row.name = name) = true ↔
      name ∈ ["NAME", "----"] := by
    have hnames : (TargetListing.read (lines targetHeader)).map TargetRow.name = ["NAME", "----"] := by
      have hboth := congrArg (List.map Prod.fst) read_targetHeader
      rw [List.map_map] at hboth
      exact hboth
    rw [← hnames, List.any_eq_true, List.mem_map]
    simp
  rw [catalogue_eq h, TargetListing.hasName, List.any_append, Bool.or_eq_true, hheader,
    List.any_map, Dict.contains_eq_any, Or.comm]
  rfl

/-- The table of a record says what is published: it has one row of the targets role for each
published name and none for any other name, nothing but the header looks like a further name, and
records with the same rows have the same contents under the same names. -/
theorem targetTable_told (h : r.Legible) :
    (∀ o server trustDir repo d e, d.disk.Regular →
        (Step.run (loadRecord o.here server repo) d).1 = .ok r →
        Step.run (sync o.here trustDir repo r) d = (.ok (), e) →
        isStale d.disk o.here server trustDir = false →
        Step.run (list o server trustDir repo) d =
          (.ok (), { e with output := d.output ++ (targetTable r.targets).toUTF8 })) ∧
      (∀ name, TargetListing.count name "targets" (catalogue r) =
        if r.targets.contains name then 1 else 0) ∧
      (∀ name, TargetListing.hasName name (catalogue r) = true ↔
        r.targets.contains name = true ∨ name ∈ ["NAME", "----"]) ∧
      ∀ r' : Record, r'.Legible →
        TargetListing.lineSet (catalogue r) = TargetListing.lineSet (catalogue r') →
          r.targets = r'.targets :=
  ⟨fun _ _ _ _ _ _ ht hload hsync hcurrent => run_list_told ht hload hsync hcurrent,
    count_targetTable h.listable, hasName_catalogue h, fun _ h' => targets_of_lineSet h h'⟩

end Records

/-! ### A sample -/

/-- Targets with a name that is longer than its column, and one that looks like the header. -/
def bookTargets : List (String × Target) := [
  ("NAME", .ofContent "DIGEST".toUTF8),
  ("a-name-that-is-longer-than-its-column", .ofContent "".toUTF8),
  ("note", .ofContent "note".toUTF8)]

def bookRecord : Record := { Record.empty with targets := .ofList bookTargets }

/-- A server with a file in the place of a record. -/
def bookTree (data : ByteArray) : Tree := demoTree.put ["srv", "demo.json"] (.file data false)

def bookDesk : Desk := ⟨bookTree bookRecord.printed, [], .empty, 0⟩

theorem legible_ofList {targets : List (String × Target)}
    (h : ∀ e ∈ targets, Wordy e.1 ∧ ∃ data, e.2.digest = digest data) :
    Record.Legible { Record.empty with targets := .ofList targets } := by
  have hmem : ∀ e ∈ (Dict.ofList targets).toList, e ∈ targets := fun e he =>
    (Dict.mem_foldl_insert he).resolve_right (by simp [Dict.empty])
  exact ⟨fun e he => (h e (hmem e he)).1, fun e he => (h e (hmem e he)).2⟩

theorem legible_bookRecord : bookRecord.Legible :=
  legible_ofList (by
    simp only [bookTargets, List.forall_mem_cons]
    exact ⟨⟨by decide, _, rfl⟩, ⟨by decide, _, rfl⟩, ⟨by decide, _, rfl⟩, by simp⟩)

theorem regular_bookDesk : bookDesk.disk.Regular :=
  Tree.Regular.put regular_demoTree (rfl : demoTree.find? ["srv"] = some .directory) (by decide)
    fun h => nomatch h

theorem readText_bookTree (text : String) :
    (bookTree text.toUTF8).readText [] (recordPath "/srv" "demo") = .ok text := by
  have hlook : (bookTree text.toUTF8).look [] (recordPath "/srv" "demo") =
      .ok (.file text.toUTF8 false) := rfl
  rw [Tree.readText, Tree.readBytes, hlook]
  simp only [fromUTF8?_toUTF8]

theorem loadRecord_bookDesk :
    Step.run (loadRecord [] "/srv" "demo") bookDesk = (.ok bookRecord, bookDesk) := by
  have htext : bookDesk.disk.readText [] (recordPath "/srv" "demo") =
      .ok bookRecord.toValue.pretty := readText_bookTree _
  have hbounded : bookRecord.Bounded := ⟨by decide, by decide +kernel⟩
  rw [loadRecord, Step.run_bind, run_present, leads_of_readText htext]
  exact run_readFile htext (readAs_record hbounded)

theorem sync_bookDesk :
    ∃ e, Step.run (sync [] "/home" "demo" bookRecord) bookDesk = (.ok (), e) := by
  have hleads : bookDesk.disk.Leads [] (rootPath "/home" "demo") ["home"] ["tuf", "demo", "metadata"]
      "root.json" :=
    ⟨by decide +kernel, ⟨["", "home"], by decide, by decide +kernel, rfl⟩, by decide +kernel,
      by decide +kernel⟩
  obtain ⟨t, hrun, -⟩ := run_writeFile hleads (Tree.clear_of_nothing rfl (fun _ _ => rfl) _)
    (by rw [show bookDesk.disk.find? _ = none from rfl]; exact nofun) bookRecord.rootDocument
  exact ⟨_, hrun⟩

/-- The name that looks like the header is counted once, and a listing of fewer targets is
another one. -/
theorem targetTable_told_book :
    (∃ e : Desk, Step.run (list ⟨[], .empty, fun _ => ""⟩ "/srv" "/home" "demo") bookDesk =
      (.ok (), { e with output := (targetTable bookRecord.targets).toUTF8 })) ∧
    TargetListing.count "NAME" "targets" (catalogue bookRecord) = 1 ∧
    TargetListing.count "ROLE" "targets" (catalogue bookRecord) = 0 ∧
    TargetListing.hasName "----" (catalogue bookRecord) = true ∧
    ¬TargetListing.hasName "DIGEST" (catalogue bookRecord) = true ∧
    TargetListing.lineSet (catalogue bookRecord) ≠ TargetListing.lineSet (catalogue .empty) := by
  obtain ⟨hprint, hcount, hname, hset⟩ := targetTable_told legible_bookRecord
  obtain ⟨e, hsync⟩ := sync_bookDesk
  refine ⟨⟨e, ?_⟩, ?_, ?_, (hname _).2 (.inr (by decide)), fun h => ?_, fun h => ?_⟩
  · have hrun := hprint ⟨[], .empty, fun _ => ""⟩ "/srv" "/home" "demo" bookDesk e
      regular_bookDesk (congrArg Prod.fst loadRecord_bookDesk) hsync rfl
    simpa [bookDesk] using hrun
  · exact (hcount _).trans (by decide +kernel)
  · exact (hcount _).trans (by decide +kernel)
  · exact absurd ((hname _).1 h) (by decide +kernel)
  · have htargets := congrArg Dict.size (hset .empty ⟨nofun, nofun⟩ h)
    exact absurd htargets (by decide +kernel)

end Notary
end TrustTrial
