import TrustTrial.Proofs.Requirements

/-!
# TrustTrial.Proofs.Admission

Who may work on a server. The commands that do so want the login, if the server has one, and a
rotation of the root key wants a confirmation besides, in front of the login. Without them a run is
refused (`run_guarded`), whatever the files and the rest of the input are.

A login counts if it is seen. It lies in the directory of the server and is looked for by its path,
and a path can be too long where those of shorter names in the same directory are not. Then the
server is open to everybody (`login_unseen`).
-/

namespace TrustTrial
namespace Notary

open Disk

/-! ## Paths that are refused -/

theorem hasNul_append (a b : String) :
    Path.hasNul (a ++ b) = (Path.hasNul a || Path.hasNul b) := by
  simp [Path.hasNul]

theorem hasNul_join {base path : String} (hbase : Path.hasNul base = false)
    (hpath : Path.hasNul path = false) : Path.hasNul (Path.join base path) = false := by
  rw [Path.join]
  split
  · exact hpath
  · split
    · rw [hasNul_append, hbase, hpath]
      rfl
    · rw [hasNul_append, hasNul_append, hbase, hpath]
      rfl

/-- A path is refused for nothing but its length if it is free of NUL characters. -/
theorem refuse?_eq {path : String} (hnul : Path.hasNul path = false) (hne : path ≠ "") :
    Tree.refuse? path =
      if Tree.longestPath < path.utf8ByteSize then some .nameTooLong else none := by
  rw [Tree.refuse?, hnul, if_neg Bool.false_ne_true, if_neg hne]

theorem hasNul_of_locate {t : Tree} {here place : Location} {path : String}
    (h : t.locate here path = .ok place) :
    Path.hasNul path = false := by
  have hrefuse := (Tree.locate_eq_ok h).1
  rw [Tree.refuse?] at hrefuse
  split at hrefuse
  · cases hrefuse
  · rename_i hnul
    exact Bool.not_eq_true _ ▸ hnul

theorem join_ne_empty (base : String) {path : String} (h : path ≠ "") :
    Path.join base path ≠ "" := by
  rw [Path.join]
  split
  · exact h
  · split <;> simp [h]

/-! ## Guards -/

/-- The commands that work on a server. -/
inductive AtServer : List String → Prop where
  | init (repo : String) : AtServer ["init", repo]
  | publish (repo : String) : AtServer ["publish", repo]
  | list (repo : String) : AtServer ["list", repo]
  | rotate (repo role : String) (flags : List String) :
    AtServer ("key" :: "rotate" :: repo :: role :: flags)

/-- How many lines of the input a command reads in front of the user name. -/
def linesBefore : List String → Nat
  | "key" :: "rotate" :: _ :: role :: _ => if role = "root" then 1 else 0
  | _ => 0

/-- There is a login in the directory of a server. -/
def HasLogin (t : Tree) (here : Location) (server : String) : Prop :=
  ∃ place, t.locate here server = .ok place ∧ t.find? place = some .directory ∧
    (t.find? (place ++ ["login.json"])).isSome

section Guards

variable {request : Request} {t : Tree} {here : Location} {server : String} {words : List String}

theorem AtServer.requirements (h : AtServer words) :
    ∃ wanted, requirements words = some wanted ∧ .login (linesBefore words) ∈ wanted := by
  cases h with
  | init repo => exact ⟨_, rfl, List.mem_cons_self⟩
  | publish repo => exact ⟨_, rfl, List.mem_cons_self⟩
  | list repo => exact ⟨_, rfl, List.mem_cons_self⟩
  | rotate repo role flags =>
    by_cases hroot : role = "root"
    · refine ⟨_, requirements_rotate.trans (if_pos hroot), ?_⟩
      simp [linesBefore, hroot]
    · refine ⟨_, requirements_rotate.trans (if_neg hroot), ?_⟩
      simp [linesBefore, hroot]

theorem AtServer.not_probes (h : AtServer (Flags.read request.args).2) : ¬Probes request := by
  have hhead : (Flags.read request.args).2.head? ∈ ["init", "publish", "list", "key"].map some := by
    generalize (Flags.read request.args).2 = words at h
    cases h <;> simp
  rintro ⟨words, hwords⟩
  rw [hwords] at hhead
  revert hhead
  simp

/-- A login is seen if its path is not too long. -/
theorem leads_login (h : HasLogin t here server)
    (hshort : (loginPath server).utf8ByteSize ≤ Tree.longestPath) :
    t.leads here (loginPath server) = true := by
  obtain ⟨place, hplace, hdir, hlogin⟩ := h
  have hname : Path.Plain "login.json" := by decide
  have hrefuse : Tree.refuse? (loginPath server) = none := by
    have hnul : Path.hasNul (Path.join server "login.json") = false :=
      hasNul_join (hasNul_of_locate hplace) (by decide)
    exact (refuse?_eq hnul (join_ne_empty server hname.named)).trans
      (if_neg (Nat.not_lt.2 hshort))
  have hlocate := Tree.locate_name hplace hdir hname hrefuse
  obtain ⟨node, hnode⟩ := Option.isSome_iff_exists.1 hlogin
  rw [Tree.leads, loginPath, Tree.look_of_locate hlocate, hnode]

/-- Commands that work on a server are guarded. If the server has a login, a run is refused unless
it is readable and the input has it; and a rotation of the root key is refused unless it is
confirmed. A run that is refused leaves all files as they were. -/
theorem run_guarded (keyName : Nat → String) {request : Request} (made : Nat) (t : Tree)
    (hat : AtServer (Flags.read request.args).2) :
    (∀ server, Chosen t request.here (Flags.read request.args).1 server →
      HasLogin t request.here server → (loginPath server).utf8ByteSize ≤ Tree.longestPath →
      ¬Known t request.here server request.stdin.data.toList
        (linesBefore (Flags.read request.args).2) →
      Refused t (run keyName request made t)) ∧
    ∀ repo flags, (Flags.read request.args).2 = "key" :: "rotate" :: repo :: "root" :: flags →
      ¬Confirmed request.stdin.data.toList → Refused t (run keyName request made t) := by
  constructor
  · intro server hchosen hlogin hshort hunknown
    refine refused_of_not_exhausting hat.not_probes ?_
    rintro ⟨trustDir, server', -, hchosen', wanted, hwanted, hmet⟩
    obtain rfl := hchosen.unique hchosen'
    obtain ⟨wanted', hwanted', hmem⟩ := hat.requirements
    obtain rfl := Option.some.inj (hwanted.symm.trans hwanted')
    exact hunknown (hmet _ hmem rfl (leads_login hlogin hshort))
  · intro repo flags hwords hno
    refine refused_of_not_exhausting hat.not_probes ?_
    rintro ⟨trustDir, server, -, -, hspent⟩
    rw [hwords, spent_iff _ _ (requirements_rotate.trans (if_pos rfl))] at hspent
    exact hno (hspent .confirmation List.mem_cons_self rfl)

end Guards

def loginText : String := "\x7b\"username\": \"user\", \"password\": \"pass\"\x7d"

theorem readAs_loginText : readAs Login.shape Login.ofValue? loginText = .ok ⟨"user", "pass"⟩ := by
  have htold : (readAs Login.shape Login.ofValue? loginText).toOption = some ⟨"user", "pass"⟩ := by
    decide +kernel
  cases hread : readAs Login.shape Login.ofValue? loginText with
  | error fault =>
    rw [hread] at htold
    cases htold
  | ok login =>
    rw [hread] at htold
    exact congrArg Except.ok (Option.some.inj htold)

/-- The tree of the demonstration, with a login on the server. -/
def lockedTree : Tree := demoTree.put ["srv", "login.json"] (.file loginText.toUTF8 false)

/-- A wrong password does not publish, and an answer other than `yes` rotates nothing. -/
theorem run_guarded_demo :
    let publication := demoRequest ["publish", "demo"] "user\nword\n"
    let rotation := demoRequest ["key", "rotate", "demo", "root"] "no\nuser\npass\n"
    Refused lockedTree (run Main.keyName publication 0 lockedTree) ∧
      Refused lockedTree (run Main.keyName rotation 0 lockedTree) := by
  intro publication rotation
  have hread : Flags.read publication.args = (demoRunner.flags "/home", ["publish", "demo"]) := by
    decide
  have hturned : Flags.read rotation.args =
      (demoRunner.flags "/home", ["key", "rotate", "demo", "root"]) := by decide
  have hpublication : AtServer (Flags.read publication.args).2 := by
    rw [hread]
    exact .publish "demo"
  have hrotation : AtServer (Flags.read rotation.args).2 := by
    rw [hturned]
    exact .rotate "demo" "root" []
  have hchosen : Chosen lockedTree [] (Flags.read publication.args).1 "/srv" := by
    rw [hread]
    exact .named rfl rfl (by decide)
  refine ⟨(run_guarded Main.keyName 0 lockedTree hpublication).1 "/srv" hchosen
    ⟨["srv"], rfl, rfl, rfl⟩ (by decide) ?_,
    (run_guarded Main.keyName 0 lockedTree hrotation).2 "demo" [] (by rw [hturned]) ?_⟩
  · rintro ⟨expected, hsaid, -, hpassword⟩
    have htold : Says lockedTree [] Login.shape Login.ofValue? (loginPath "/srv")
        ⟨"user", "pass"⟩ := ⟨loginText, by rfl, readAs_loginText⟩
    obtain rfl := hsaid.unique htold
    rw [hread] at hpassword
    revert hpassword
    decide +kernel
  · rintro ⟨line, hline, hyes⟩
    have hno : lineAt rotation.stdin.data.toList 0 = some "no" := by decide +kernel
    obtain rfl := Option.some.inj (hno.symm.trans hline)
    revert hyes
    decide +kernel

/-! ## A login that is not seen -/

/-- The path of the server directory, with as many steps that stay in it as given. -/
def windingPath : Nat → String
  | 0 => "srv"
  | n + 1 => windingPath n ++ "/" ++ "."

section Winding

variable {t : Tree} {here place : Location} {name : String} {n : Nat}

theorem utf8ByteSize_windingPath (n : Nat) : (windingPath n).utf8ByteSize = 3 + 2 * n := by
  induction n with
  | zero => rfl
  | succ n ih =>
    rw [windingPath, String.utf8ByteSize_append, String.utf8ByteSize_append, ih]
    exact Nat.add_assoc _ 1 1

theorem hasNul_windingPath (n : Nat) : Path.hasNul (windingPath n) = false := by
  induction n with
  | zero => rfl
  | succ n ih =>
    rw [windingPath, hasNul_append, hasNul_append, ih]
    rfl

theorem parts_windingPath (n : Nat) :
    Path.parts (windingPath n) = "srv" :: List.replicate n "." := by
  induction n with
  | zero => rfl
  | succ n ih =>
    rw [windingPath, Path.parts_slash, ih, List.replicate_succ']
    rfl

theorem windingPath_open (n : Nat) : windingPath n ≠ "" ∧ Path.endsInSlash (windingPath n) = false ∧
    Path.isAbsolute (windingPath n) = false := by
  induction n with
  | zero => decide
  | succ n ih =>
    obtain ⟨hne, -, habsolute⟩ := ih
    have hfront : windingPath n ++ "/" ≠ "" := by simp
    refine ⟨by simp [windingPath], ?_, ?_⟩
    · rw [windingPath, Path.endsInSlash_append (by decide)]
      rfl
    · rw [windingPath, Path.isAbsolute_append hfront, Path.isAbsolute_append hne, habsolute]

theorem join_windingPath (hname : Path.isAbsolute name = false) :
    Path.join (windingPath n) name = windingPath n ++ "/" ++ name := by
  obtain ⟨hne, hslash, -⟩ := windingPath_open n
  have hempty : (windingPath n).isEmpty = false := by simpa using hne
  simp [Path.join, hname, hslash, hempty]

theorem walk_stay (hdir : t.find? place = some .directory) (n : Nat) :
    t.walk place (List.replicate n ".") = .ok place := by
  induction n with
  | zero => rfl
  | succ n ih =>
    rw [List.replicate_succ, Tree.walk, Tree.step, hdir]
    exact ih

theorem locate_windingPath (hdir : t.find? ["srv"] = some .directory)
    (hshort : 3 + 2 * n ≤ Tree.longestPath) : t.locate [] (windingPath n) = .ok ["srv"] := by
  obtain ⟨hne, -, habsolute⟩ := windingPath_open n
  have hrefuse : Tree.refuse? (windingPath n) = none := by
    rw [refuse?_eq (hasNul_windingPath n) hne, utf8ByteSize_windingPath,
      if_neg (Nat.not_lt.2 hshort)]
  have hstep : t.step [] "srv" = .ok ["srv"] :=
    Tree.step_name rfl (by decide) (by decide) (by decide) (by decide)
  rw [Tree.locate, hrefuse, habsolute, parts_windingPath]
  simp only [Bool.false_eq_true, if_false, Tree.walk, hstep]
  exact walk_stay hdir n

/-- The locked server, with a record. -/
def heldTree : Tree :=
  lockedTree.put ["srv", "demo.json"] (.file demoRecord.printed false)

/-- A client that takes a winding path to the server. -/
def windingRunner (n : Nat) : Runner :=
  { demoRunner with server := .remote ("file://" ++ windingPath n) }

def windingRequest (n : Nat) : Request :=
  { demoRequest [] "" with args := (windingRunner n).arguments (.new "/home" ["list", "demo"]) }

theorem serverDir?_file (dir : String) : serverDir? ("file://" ++ dir) = some dir := by
  simp [serverDir?, String.toList_append]

theorem read_windingRequest (n : Nat) :
    Flags.read (windingRequest n).args = ((windingRunner n).flags "/home", ["list", "demo"]) :=
  read_request (i := .new "/home" ["list", "demo"]) rfl (by decide)

/-- A path on from there is refused for its length only. -/
theorem refuse?_below (n : Nat) (hname : Path.Plain name) (hnul : Path.hasNul name = false) :
    Tree.refuse? (Path.join (windingPath n) name) =
      if Tree.longestPath < 4 + 2 * n + name.utf8ByteSize then some .nameTooLong else none := by
  have hsize : (Path.join (windingPath n) name).utf8ByteSize = 4 + 2 * n + name.utf8ByteSize := by
    rw [join_windingPath hname.isAbsolute, String.utf8ByteSize_append, String.utf8ByteSize_append,
      utf8ByteSize_windingPath, show "/".utf8ByteSize = 1 from rfl]
    omega
  rw [refuse?_eq (hasNul_join (hasNul_windingPath n) hnul) (join_ne_empty _ hname.named), hsize]

/-- A login is not seen at the end of a path that is just too long. -/
theorem not_leads_loginPath (hlong : Tree.longestPath < 4 + 2 * n + 10) :
    t.leads here (loginPath (windingPath n)) = false := by
  have hrefuse : Tree.refuse? (loginPath (windingPath n)) = some .nameTooLong :=
    (refuse?_below n (by decide) (by decide)).trans (if_pos hlong)
  simp only [Tree.leads, Tree.look, Tree.locate, hrefuse]

/-- The record has a shorter name. -/
theorem readText_recordPath {r : Record} (hdir : t.find? ["srv"] = some .directory)
    (hfile : t.find? ["srv", "demo.json"] = some (.file r.printed false))
    (hshort : 4 + 2 * n + 9 ≤ Tree.longestPath) :
    t.readText [] (recordPath (windingPath n) "demo") = .ok r.toValue.pretty := by
  have hrefuse : Tree.refuse? (recordPath (windingPath n) "demo") = none :=
    (refuse?_below n (by decide) (by decide)).trans (if_neg (Nat.not_lt.2 hshort))
  have hbase : t.locate [] (windingPath n) = .ok ["srv"] := locate_windingPath hdir (by omega)
  have hlocate : t.locate [] (recordPath (windingPath n) "demo") = .ok ["srv", "demo.json"] :=
    Tree.locate_name hbase hdir (by decide) hrefuse
  have hlook := Tree.look_of_locate hlocate
  rw [hfile] at hlook
  rw [Tree.readText, Tree.readBytes, hlook]
  simp only [Record.printed, Text.fromUTF8?_toUTF8]

/-- A record that is loaded and copied is listed. -/
theorem list_of_sync {o : Office} {server trustDir repo : String} {r : Record} {d : Desk} {u : Tree}
    (hlogin : d.disk.leads o.here (loginPath server) = false)
    (hload : Step.run (loadRecord o.here server repo) d = (.ok r, d))
    (hsync : Step.run (sync o.here trustDir repo r) d = (.ok (), { d with disk := u })) :
    ∃ e, Step.run (command o server trustDir ["list", repo]) d = (.ok (), e) := by
  have hasked : Step.run (login o.here server) d = (.ok (), d) := by
    rw [login_eq, Step.run_bind, run_present, hlogin]
    rfl
  rw [command, Step.run_bind, hasked]
  dsimp only
  rw [list, Step.run_bind, hload]
  dsimp only
  rw [Step.run_bind, hsync]
  have hprint : ∀ text d', Step.run (print text) d' =
      (.ok (), { d' with output := d'.output ++ text.toUTF8 }) := fun _ _ => rfl
  have hlook : ∀ d', Step.run (look fun disk => .ok (isStale disk o.here server trustDir)) d' =
      (.ok (isStale d'.disk o.here server trustDir), d') := fun _ => rfl
  simp only [Step.run_bind, hprint, hlook]
  split
  · exact ⟨_, rfl⟩
  · exact ⟨_, hprint _ _⟩

/-- The trust directory of the demonstration has room for a copy. -/
theorem sync_heldTree {d : Desk} (hd : d.disk = heldTree) :
    ∃ u, Step.run (sync [] "/home" "demo" demoRecord) d = (.ok (), { d with disk := u }) := by
  have hleads : heldTree.Leads [] (rootPath "/home" "demo") ["home"] ["tuf", "demo", "metadata"]
      "root.json" :=
    ⟨by decide +kernel, ⟨["", "home"], by decide, by decide +kernel, rfl⟩, by decide +kernel,
      by decide +kernel⟩
  have hclear : heldTree.Clear ["home"] ["tuf", "demo", "metadata"] :=
    Tree.clear_of_nothing rfl (fun _ _ => rfl) _
  have hnone : heldTree.find? (["home"] ++ ["tuf", "demo", "metadata"] ++ ["root.json"]) = none :=
    rfl
  rw [← hd] at hleads hclear hnone
  obtain ⟨u, hsync, -⟩ := run_writeFile hleads hclear (by rw [hnone]; exact nofun)
    demoRecord.rootDocument
  exact ⟨u, hsync⟩

/-- Where the path of the login is just too long, the client is answered without one. -/
theorem run_winding (hlong : Tree.longestPath < 4 + 2 * n + 10)
    (hshort : 4 + 2 * n + 9 ≤ Tree.longestPath) :
    (run Main.keyName (windingRequest n) 0 heldTree).1.exit = some 0 := by
  let d := deskOf (windingRequest n) 0 heldTree
  have hrecord : d.disk.readText [] (recordPath (windingPath n) "demo") =
      .ok demoRecord.toValue.pretty := readText_recordPath rfl rfl hshort
  have hload : Step.run (loadRecord [] (windingPath n) "demo") d = (.ok demoRecord, d) := by
    rw [loadRecord, Step.run_bind, run_present, leads_of_readText hrecord]
    exact run_readFile hrecord (readAs_record bounded_demoRecord)
  obtain ⟨u, hsync⟩ := sync_heldTree (d := d) rfl
  obtain ⟨e, hlist⟩ := list_of_sync (o := officeOf Main.keyName (windingRequest n))
    (not_leads_loginPath hlong) hload hsync
  have hopen : openServer [] ((windingRunner n).flags "/home") = pure (windingPath n) := by
    simp only [openServer, Runner.flags, windingRunner, serverDir?_file]
  have hanswer : Step.run (answer (officeOf Main.keyName (windingRequest n))
      (windingRequest n).args) d = (.ok 0, e) := by
    have hargs : (windingRequest n).args =
        (windingRunner n).arguments (.new "/home" ["list", "demo"]) := rfl
    have hoffice : (officeOf Main.keyName (windingRequest n)).here = [] := rfl
    rw [hargs, answer_eq _ (by decide), hoffice]
    dsimp only [Invocation.new]
    rw [hopen, pure_bind, Step.run_bind, hlist]
    rfl
  exact (run_of_code hanswer).1

end Winding

/-- A login can be out of sight. It is in the directory of the server, where it can be read, and the
input does not have it; and yet the server answers to those who take a winding path. -/
theorem login_unseen : ∃ n,
    AtServer (Flags.read (windingRequest n).args).2 ∧
      Chosen heldTree [] (Flags.read (windingRequest n).args).1 (windingPath n) ∧
      HasLogin heldTree [] (windingPath n) ∧
      Says heldTree [] Login.shape Login.ofValue? "/srv/login.json" ⟨"user", "pass"⟩ ∧
      lineAt (windingRequest n).stdin.data.toList 0 ≠ some "user" ∧
      (run Main.keyName (windingRequest n) 0 heldTree).1.exit = some 0 := by
  have hplace : heldTree.locate [] (windingPath 2041) = .ok ["srv"] :=
    locate_windingPath rfl (by decide)
  refine ⟨2041, ?_, ?_, ⟨["srv"], hplace, rfl, rfl⟩, ⟨loginText, by rfl, readAs_loginText⟩, ?_,
    run_winding (by decide) (by decide)⟩
  · rw [read_windingRequest]
    exact .list "demo"
  · rw [read_windingRequest]
    exact .named rfl rfl (serverDir?_file _)
  · exact (by decide : lineAt [] 0 ≠ some "user")

end Notary
end TrustTrial
