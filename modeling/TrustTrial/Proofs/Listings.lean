import TrustTrial.Proofs.Chronicles

/-!
# TrustTrial.Proofs.Listings

What a listing says depends on the record alone, whoever asks for it. The client's trust directory
comes in twice: its copy of the root document is written there, which is not told, and the server may
have fallen behind for it.
-/

namespace TrustTrial
namespace Disk
namespace Tree

/-- A file below a directory can be read under every path that is not refused. -/
theorem readText_of_content {t : Tree} {here : Location} {base name text : String} {data : ByteArray}
    (ht : t.Regular) (hbase : t.Steady here base) (hname : Path.Proper name)
    (hrefuse : refuse? (Path.join base name) = none)
    (hdata : t.content (Path.place here (Path.join base name)) = some data)
    (htext : String.fromUTF8? data = some text) :
    t.readText here (Path.join base name) = .ok text := by
  cases hlook : t.look here (Path.join base name) with
  | error fault =>
    have hleads : t.leads here (Path.join base name) = false := by rw [leads, hlook]
    rw [content_of_not_leads ht hbase hname hrefuse hleads] at hdata
    cases hdata
  | ok node =>
    obtain ⟨executable, hfile⟩ := content_eq_some.1 hdata
    obtain rfl := Option.some.inj ((find?_of_look hlook).symm.trans hfile)
    rw [readText, readBytes, hlook]
    simp only [htext]

end Tree
end Disk

namespace Notary

open Disk

/-! ## Reading steps -/

namespace Step

variable {α β : Type} {x : Step α} {f : α → Step β} {t : Tree} {a : α} {result : Except Trouble β}
  {trouble : Trouble}

/-- A step whose result is settled by the files alone, and that does nothing else. -/
def Reads (x : Step α) (t : Tree) (result : Except Trouble α) : Prop :=
  ∀ d : Desk, d.disk = t → run x d = (result, d)

theorem Reads.bind (hx : Reads x t (.ok a)) (hf : Reads (f a) t result) : Reads (x >>= f) t result := by
  intro d hd
  rw [run_bind, hx d hd]
  exact hf d hd

theorem Reads.bind_error (hx : Reads x t (.error trouble)) : Reads (x >>= f) t (.error trouble) := by
  intro d hd
  rw [run_bind, hx d hd]

theorem reads_bind (hx : ∃ result, Reads x t result) (hf : ∀ a, ∃ result, Reads (f a) t result) :
    ∃ result, Reads (x >>= f) t result := by
  obtain ⟨_ | a, hx⟩ := hx
  · exact ⟨_, hx.bind_error⟩
  · obtain ⟨result, hf⟩ := hf a
    exact ⟨result, hx.bind hf⟩

theorem reads_pure (a : α) (t : Tree) : Reads (pure a) t (.ok a) := fun _ _ => rfl

theorem reads_throw (trouble : Trouble) (t : Tree) : Reads (throw trouble : Step α) t (.error trouble) :=
  fun _ _ => rfl

theorem reads_look (g : Tree → Except Trouble α) (t : Tree) : Reads (look g) t (g t) := by
  rintro d rfl
  rfl

end Step

open Step

section Reading

variable {α : Type} (here : Location) (shape : Json.Shape) (ofValue? : Json.Value → Option α)
  (path server repo : String) (t : Tree)

theorem reads_readFile : ∃ result, Reads (readFile here shape ofValue? path) t result := by
  refine reads_bind ⟨_, reads_look _ t⟩ fun text => ?_
  split
  · exact ⟨_, reads_throw _ t⟩
  · exact ⟨_, reads_pure _ t⟩

theorem reads_loadRecord : ∃ result, Reads (loadRecord here server repo) t result := by
  refine reads_bind ⟨_, reads_look _ t⟩ fun found => ?_
  split
  · exact reads_readFile here _ _ _ t
  · exact ⟨_, reads_throw _ t⟩

theorem reads_openServer (f : Flags) : ∃ result, Reads (openServer here f) t result := by
  unfold openServer
  split
  · split
    · exact ⟨_, reads_throw _ t⟩
    · exact ⟨_, reads_pure _ t⟩
  · split
    · exact ⟨_, reads_throw _ t⟩
    · refine reads_bind ⟨_, reads_look _ t⟩ fun text => ?_
      split
      · exact ⟨_, reads_throw _ t⟩
      · split
        · exact ⟨_, reads_throw _ t⟩
        · exact ⟨_, reads_pure _ t⟩
  · exact ⟨_, reads_throw _ t⟩

variable {here server t}

/-- Where there is no file of a login, nothing is asked. -/
theorem reads_login (h : t.content (Path.place here (loginPath server)) = none) :
    ∃ result, Reads (login here server) t result := by
  refine reads_bind ⟨_, reads_look _ t⟩ fun found => ?_
  split
  · obtain ⟨_ | expected, hread⟩ := reads_readFile here Login.shape Login.ofValue? (loginPath server) t
    · exact ⟨_, hread.bind_error⟩
    · obtain ⟨bytes, _, hbytes, -⟩ := told_of_readFile (hread ⟨t, [], .empty, 0⟩ rfl)
      rw [h] at hbytes
      cases hbytes
  · exact ⟨_, reads_pure _ t⟩

end Reading

/-! ## Listings -/

/-- What is printed of a record. -/
def listing (r : Record) : ByteArray :=
  .empty ++ (lines targetHeader).toUTF8 ++ (lines (targetRows r.targets)).toUTF8

/-- A request whose server has not fallen behind for its trust directory. -/
def Current (t : Tree) (request : Request) : Prop :=
  ∀ trustDir server d e, (Flags.read request.args).1.trustDir = some trustDir → d.disk = t →
    Step.run (openServer request.here (Flags.read request.args).1) d = (.ok server, e) →
      isStale t request.here server trustDir = false

/-- A request for the listing of a repository, with given flags but for the trust directory. -/
structure AsksListing (keyName : Nat → String) (shelf here : Location) (f : Flags) (repo : String)
    (s : Store) (request : Request) : Prop where
  here : request.here = here
  asks : ∃ trustDir, Flags.read request.args = ({ f with trustDir := some trustDir }, ["list", repo])
  fair : ∃ home, Fair keyName shelf request home s
  current : Current s.disk request

/-- The answer to such a request. -/
def listed (o : Office) (f : Flags) (trustDir repo : String) : Step Nat := do
  let server ← openServer o.here f
  (do
    login o.here server
    list o server trustDir repo)
  pure 0

section Listings

variable {keyName : Nat → String} {shelf here home : Location} {f : Flags}
  {server trustDir repo : String} {o : Office} {s : Store} {t u : Tree} {r : Record} {d e : Desk}
  {made : Nat} {request a b : Request} {trouble : Trouble}

theorem answer_list {args : List String}
    (hread : Flags.read args = ({ f with trustDir := some trustDir }, ["list", repo])) :
    answer o args = listed o f trustDir repo := by
  rw [answer, hread]
  rfl

theorem run_of_error (h : Step.run (answer (officeOf keyName request) request.args)
      (deskOf request made t) = (.error trouble, d)) (hd : d.output = .empty) :
    (run keyName request made t).1 = ⟨.empty, trouble.report, some trouble.exit⟩ := by
  simp only [officeOf, deskOf] at h
  simp only [run, h, hd]

theorem run_of_ok {code : Nat} (h : Step.run (answer (officeOf keyName request) request.args)
      (deskOf request made t) = (.ok code, d)) :
    (run keyName request made t).1 = ⟨d.output, "", some code⟩ := by
  simp only [officeOf, deskOf] at h
  simp only [run, h]

theorem output_writeFile {path : String} {v : Json.Value} {result : Except Trouble Unit}
    (h : Step.run (writeFile here path v) d = (result, e)) : e.output = d.output := by
  simp only [Step.run, writeFile] at h
  split at h
  · cases h
    rfl
  · split at h <;>
    · cases h
      rfl

theorem Addressed.stalePath (ha : Addressed t here server trustDir shelf home) :
    Path.place here (stalePath server) = shelf ++ ["stale_suffix"] := by
  have hplain : Path.Plain "stale_suffix" := by decide
  rw [Notary.stalePath, Path.place_join_name hplain.proper, ha.server_place]

/-- A server that no file says so of has fallen behind for no one. -/
theorem current_of_content (hdirected : Directed t request shelf home)
    (hnone : t.content (shelf ++ ["stale_suffix"]) = none) : Current t request := by
  intro trustDir server d e hdir hd hopen
  have ha := hdirected trustDir server d e hdir hd hopen
  cases htext : t.readText request.here (stalePath server) with
  | error fault => simp only [isStale, htext]
  | ok text =>
    obtain ⟨data, hdata, -⟩ := Tree.readText_content htext
    rw [ha.stalePath, hnone] at hdata
    cases hdata

/-- The server falls behind only through its own file. -/
theorem isStale_of_content (ht : t.Regular) (hserver : t.Steady here server)
    (hsame : u.content (Path.place here (Notary.stalePath server)) =
      t.content (Path.place here (Notary.stalePath server)))
    (hcurrent : isStale t here server trustDir = false) :
    isStale u here server trustDir = false := by
  cases htext : u.readText here (Notary.stalePath server) with
  | error fault => simp only [isStale, htext]
  | ok text =>
    obtain ⟨data, hdata, hutf⟩ := Tree.readText_content htext
    have hrefuse : Tree.refuse? (Notary.stalePath server) = none := by
      cases hlocate : u.locate here (Notary.stalePath server) with
      | error fault => simp [Tree.readText, Tree.readBytes, Tree.look, hlocate] at htext
      | ok place => exact (Tree.locate_eq_ok hlocate).1
    rw [hsame] at hdata
    have hplain : Path.Plain "stale_suffix" := by decide
    have hread : t.readText here (Notary.stalePath server) = .ok text :=
      Tree.readText_of_content ht hserver hplain.proper hrefuse hdata hutf
    simp only [isStale, hread] at hcurrent
    simp only [isStale, htext]
    exact hcurrent

/-- A copy of a root document lies in another place, whatever the server and the trust directory. -/
theorem stalePlace_ne_rootPlace (here : Location) (server trustDir repo : String) :
    Path.place here (Notary.stalePath server) ≠ Path.place here (rootPath trustDir repo) := by
  have hstale : Path.Plain "stale_suffix" := by decide
  have hroot : Path.Plain "root.json" := by decide
  rw [Notary.stalePath, rootPath, Path.place_join_name hstale.proper,
    Path.place_join_name hroot.proper]
  intro h
  simpa using (List.append_inj' h rfl).2

theorem toUTF8_targetTable (targets : Dict Target) : (targetTable targets).toUTF8 =
    (lines targetHeader).toUTF8 ++ (lines (targetRows targets)).toUTF8 := by
  simp [targetTable]

/-- A record that was loaded is listed, once the copy of its root document is written. -/
theorem run_list_synced (ht : d.disk.Regular) (hserver : d.disk.Steady o.here server)
    (hcurrent : isStale d.disk o.here server trustDir = false)
    (hload : Step.run (loadRecord o.here server repo) d = (.ok r, d))
    (hsync : Step.run (sync o.here trustDir repo r) d = (.ok (), e)) :
    Step.run (list o server trustDir repo) d =
      (.ok (), { e with output := d.output ++ (targetTable r.targets).toUTF8 }) := by
  have hcharted : d.Charted d.disk.content d.made := ⟨ht, rfl, rfl⟩
  have hstale : isStale e.disk o.here server trustDir = false := by
    refine isStale_of_content ht hserver ?_ hcurrent
    rw [(hcharted.writeFile hsync).2.content,
      Tree.Contents.put_of_ne (stalePlace_ne_rootPlace o.here server trustDir repo)]
  have hprint : ∀ text d', Step.run (print text) d' =
      (.ok (), { d' with output := d'.output ++ text.toUTF8 }) := fun _ _ => rfl
  have hlook : ∀ output, Step.run (look fun disk => .ok (isStale disk o.here server trustDir))
      { e with output := output } = (.ok false, { e with output := output }) :=
    fun output => by rw [← hstale]; rfl
  rw [list, run_bind, hload]
  dsimp only
  rw [run_bind, hsync]
  simp only [run_bind, hprint, hlook, Bool.false_eq_true, if_false, output_writeFile hsync,
    ByteArray.append_assoc, toUTF8_targetTable]

/-- A record that was loaded is listed, unless the copy of its root document cannot be written. -/
theorem run_list (ha : Addressed t o.here server trustDir shelf home) (ht : t.Regular)
    (hcurrent : isStale t o.here server trustDir = false) (hd : d.disk = t)
    (hload : Reads (loadRecord o.here server repo) t (.ok r)) :
    (∃ trouble e, Step.run (list o server trustDir repo) d = (.error trouble, e) ∧
        trouble.writing = true) ∨
      ∃ e, Step.run (list o server trustDir repo) d = (.ok (), e) ∧
        e.output = d.output ++ (targetTable r.targets).toUTF8 := by
  obtain rfl := hd
  cases hsync : Step.run (sync o.here trustDir repo r) d with
  | mk result e =>
    cases result with
    | error trouble =>
      refine .inl ⟨trouble, e, ?_, firm_writeFile _ _ _ d e trouble hsync⟩
      rw [list, run_bind, hload d rfl]
      dsimp only
      rw [run_bind, hsync]
    | ok _ => exact .inr ⟨_, run_list_synced ht ha.server_steady hcurrent (hload d rfl) hsync, rfl⟩

/-- The server that is opened is the one that all requests name. -/
theorem AsksListing.addressed (h : AsksListing keyName shelf here f repo s request)
    (hopen : Reads (openServer here f) s.disk (.ok server)) : ∃ trustDir home,
      Flags.read request.args = ({ f with trustDir := some trustDir }, ["list", repo]) ∧
      Fair keyName shelf request home s ∧ Addressed s.disk here server trustDir shelf home ∧
        isStale s.disk here server trustDir = false := by
  obtain ⟨rfl, ⟨trustDir, hread⟩, ⟨home, hfair⟩, hcurrent⟩ := h
  have hflags : (Flags.read request.args).1 = { f with trustDir := some trustDir } := by rw [hread]
  have hopened : Step.run (openServer request.here (Flags.read request.args).1)
      (deskOf request s.made s.disk) = (.ok server, deskOf request s.made s.disk) := by
    rw [hflags]
    exact hopen _ rfl
  exact ⟨trustDir, home, hread, hfair,
    hfair.directed trustDir server _ _ (by rw [hflags]) rfl hopened,
    hcurrent trustDir server _ _ (by rw [hflags]) rfl hopened⟩

/-- A request that is refused before anything is written. -/
theorem AsksListing.refused (h : AsksListing keyName shelf here f repo s request)
    (hreads : ∀ o : Office, o.here = here → ∀ trustDir,
      Reads (listed o f trustDir repo) s.disk (.error trouble)) :
    (run keyName request s.made s.disk).1 =
      ⟨.empty, trouble.report, some trouble.exit⟩ := by
  obtain ⟨trustDir, hread⟩ := h.asks
  refine run_of_error (d := deskOf request s.made s.disk) ?_ rfl
  rw [answer_list hread]
  exact hreads _ h.here trustDir _ rfl

/-- A request that is granted. -/
theorem AsksListing.granted (h : AsksListing keyName shelf here f repo s request)
    (hs : s.disk.Regular) (hopen : Reads (openServer here f) s.disk (.ok server))
    (hlogin : Reads (login here server) s.disk (.ok ()))
    (hload : Reads (loadRecord here server repo) s.disk (.ok r)) :
    (run keyName request s.made s.disk).1 = ⟨listing r, "", some 0⟩ := by
  obtain ⟨trustDir, home, hread, hfair, ha, hstale⟩ := h.addressed hopen
  obtain rfl := h.here
  have hlist := run_list (o := officeOf keyName request) (d := deskOf request s.made s.disk)
    ha hs hstale rfl hload
  -- From where the record was found, the answer goes as the list does.
  have hanswer : Step.run (answer (officeOf keyName request) request.args)
      (deskOf request s.made s.disk) =
        Step.run (list (officeOf keyName request) server trustDir repo >>= fun _ => pure 0)
          (deskOf request s.made s.disk) := by
    have hopened : Step.run (openServer (officeOf keyName request).here f)
        (deskOf request s.made s.disk) = (.ok server, deskOf request s.made s.disk) := hopen _ rfl
    have hlogged : Step.run (login (officeOf keyName request).here server)
        (deskOf request s.made s.disk) = (.ok (), deskOf request s.made s.disk) := hlogin _ rfl
    rw [answer_list hread, listed, run_bind, hopened]
    simp only [run_bind, hlogged]
  rw [run_bind] at hanswer
  rcases hlist with ⟨trouble, e, hrun, hwriting⟩ | ⟨e, hrun, houtput⟩
  · rw [hrun] at hanswer
    rw [hfair.unhindered trouble e hanswer] at hwriting
    cases hwriting
  · rw [hrun] at hanswer
    rw [run_of_ok hanswer, houtput, toUTF8_targetTable, ← ByteArray.append_assoc]
    rfl

/-- Whoever asks for it, a listing says the same. -/
theorem listings_alike (hs : s.disk.Regular) (hnone : s.disk.content (shelf ++ ["login.json"]) = none)
    (ha : AsksListing keyName shelf here f repo s a) (hb : AsksListing keyName shelf here f repo s b) :
    (run keyName a s.made s.disk).1 = (run keyName b s.made s.disk).1 := by
  -- Up to the record, a request gets to see what all of them have in common.
  have hrefused : ∀ trouble, (∀ o : Office, o.here = here → ∀ trustDir,
      Reads (listed o f trustDir repo) s.disk (.error trouble)) →
        (run keyName a s.made s.disk).1 = (run keyName b s.made s.disk).1 :=
    fun trouble hreads => (ha.refused hreads).trans (hb.refused hreads).symm
  obtain ⟨trouble | server, hopen⟩ := reads_openServer here s.disk f
  · refine hrefused trouble ?_
    rintro o rfl trustDir
    exact hopen.bind_error
  · have hlogin : Path.place here (loginPath server) = shelf ++ ["login.json"] := by
      obtain ⟨trustDir, home, -, -, haddressed, -⟩ := ha.addressed hopen
      have hplain : Path.Plain "login.json" := by decide
      rw [loginPath, Path.place_join_name hplain.proper, haddressed.server_place]
    rw [← hlogin] at hnone
    obtain ⟨trouble | _, hlogin⟩ := reads_login hnone
    · refine hrefused trouble ?_
      rintro o rfl trustDir
      refine hopen.bind (Reads.bind_error ?_)
      exact hlogin.bind_error
    · obtain ⟨trouble | r, hload⟩ := reads_loadRecord here server repo s.disk
      · refine hrefused trouble ?_
        rintro o rfl trustDir
        refine hopen.bind (Reads.bind_error ?_)
        exact hlogin.bind hload.bind_error
      · rw [ha.granted hs hopen hlogin hload, hb.granted hs hopen hlogin hload]

end Listings

end Notary
end TrustTrial
