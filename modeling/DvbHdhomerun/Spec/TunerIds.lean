import DvbHdhomerun.ForStd.Run
import DvbHdhomerun.Spec.Registration

/-!
# Tuner ids over restarts of the daemon

One loaded module serves any number of daemons one after the other, each with its own set of
tuners. The ids that the module has handed out are `0` to `n - 1`, one for each name that was
ever registered, and every daemon finds under an id the tuner that the module means by it.

* `LoadedModule.StableIds`: the statement for one state
* `LoadedModule.stableIds_of_sessions`: it holds after every sequence of sessions
-/

namespace DvbHdhomerun

/-- The form of the names that libhdhomerun gives: eight hexadecimal digits, a dash and a
    one-digit tuner index. -/
def IsTunerName (name : String) : Prop :=
  ∃ ds i, name.toList = ds ++ ['-', i] ∧ ds.length = 8 ∧
    (∀ c ∈ ds, (Hex.digitValue c).isSome) ∧ '0' ≤ i ∧ i ≤ '9'

/-- Such a name is ten bytes long and has no NUL. -/
theorem IsTunerName.ofString {name : String} (h : IsTunerName name) :
    (CString.ofString name).length = 10 ∧ ∀ b ∈ CString.ofString name, b ≠ 0 := by
  obtain ⟨ds, i, hname, hlen, hds, hi0, hi9⟩ := h
  have hascii : ∀ c ∈ name.toList, 0 < c.toNat ∧ c.toNat < 128 := by
    intro c hc
    rw [hname] at hc
    rcases List.mem_append.mp hc with hc | hc
    · exact Hex.toNat_of_digitValue (Option.isSome_iff_ne_none.mp (hds c hc))
    · rcases List.mem_cons.mp hc with rfl | hc
      · decide
      · rw [List.mem_singleton.mp hc]
        exact ⟨Nat.lt_of_lt_of_le (by decide) hi0, Nat.lt_of_le_of_lt hi9 (by decide)⟩
  obtain ⟨hsize, hne⟩ := CString.ofString_ascii hascii
  refine ⟨?_, hne⟩
  rw [hsize, hname, List.length_append, hlen]
  rfl

/-- The name under which the kernel keeps a tuner. -/
def kernelName (name : String) : List UInt8 := (CString.chars (CString.ofString name)).take 11

/-- The kernel keeps the whole name of a tuner. -/
theorem IsTunerName.kernelName_eq {name : String} (h : IsTunerName name) :
    kernelName name = CString.ofString name := by
  obtain ⟨hlen, hne⟩ := h.ofString
  rw [kernelName, CString.chars_eq_self hne]
  exact List.take_of_length_le (by omega)

/-- And compares the whole of it. -/
theorem IsTunerName.nameKey_eq {name : String} (h : IsTunerName name) :
    nameKey (kernelName name) = CString.ofString name := by
  rw [h.kernelName_eq]
  exact List.take_of_length_le (by rw [h.ofString.1])

/-- The name that the kernel holds under an id. -/
def TunerTable.nameOf (t : TunerTable) (id : Int32) : Option (List UInt8) :=
  (t.platformDevice.find? fun dev => dev.id == id).map PlatformDevice.name

/-- The entry at an index is the one with that id. -/
theorem TunerTable.Live.nameOf_ofNat {t : TunerTable} (hlive : t.Live) {i : Nat}
    {name : List UInt8} (h : t.names[i]? = some name) : t.nameOf (Int32.ofNat i) = some name := by
  rw [names, List.getElem?_map] at h
  obtain ⟨dev, hdev, rfl⟩ := Option.map_eq_some_iff.mp h
  obtain ⟨hi, hget⟩ := List.getElem?_eq_some_iff.mp hdev
  have h8 : i < 8 := Nat.lt_of_lt_of_le hi t.bound
  have hfind : t.platformDevice.find? (fun dev => dev.id == Int32.ofNat i) = some dev := by
    rw [List.find?_eq_some_iff_getElem]
    refine ⟨beq_iff_eq.mpr (hlive.entry i dev hdev).id, i, hi, hget, fun j hj => ?_⟩
    have hentry := hlive.entry j _ (List.getElem?_eq_getElem (Nat.lt_trans hj hi))
    rw [Bool.not_eq_true', beq_eq_false_iff_ne, hentry.id]
    -- different indices below eight are different ids
    intro heq
    have hnat := congrArg Int32.toNatClampNeg heq
    rw [Int32.toNatClampNeg_ofNat_of_lt (by omega),
      Int32.toNatClampNeg_ofNat_of_lt (by omega)] at hnat
    omega
  rw [nameOf, hfind, Option.map_some]

/-! ## Sequences of requests -/

/-- The requests take the table from one state to another. -/
inductive Requests : TunerTable → List Registration → TunerTable → Prop where
  | nil (t : TunerTable) : Requests t [] t
  | cons {t t' t'' : TunerTable} {name : String} {id : Option Int32} {regs : List Registration}
      (hreg : t.Interned (kernelName name) id t') (hregs : Requests t' regs t'') :
      Requests t (⟨name, id, t, t'⟩ :: regs) t''

namespace Requests

variable {t t' t'' : TunerTable} {regs regs' : List Registration}

/-- Requests one after the other. -/
theorem append (h : Requests t regs t') (h' : Requests t' regs' t'') :
    Requests t (regs ++ regs') t'' := by
  induction h with
  | nil => exact h'
  | cons hreg _ ih => exact .cons hreg (ih h')

/-- Requests keep the table live. -/
theorem live (h : Requests t regs t') (hlive : t.Live) : t'.Live := by
  induction h with
  | nil => exact hlive
  | cons hreg _ ih => exact ih hreg.live

/-- A request that fails changes nothing. -/
theorem rejected (h : Requests t regs t') : ∀ reg ∈ regs, reg.id = none → reg.after = reg.before := by
  induction h with
  | nil => exact nofun
  | cons hreg _ ih =>
    intro reg hmem hnone
    rcases List.mem_cons.mp hmem with rfl | hmem
    · exact hreg.rejected hnone
    · exact ih reg hmem hnone

/-- The names in the table come from the requests. -/
theorem mem_names (h : Requests t regs t') {s : List UInt8} (hs : s ∈ t'.names) :
    s ∈ t.names ∨ ∃ reg ∈ regs, s = kernelName reg.name := by
  induction h with
  | nil => exact .inl hs
  | cons hreg _ ih =>
    rcases ih hs with hs' | ⟨reg, hmem, heq⟩
    · rcases hreg.names_eq with hnames | hnames
      · exact .inl (hnames ▸ hs')
      · rw [hnames] at hs'
        rcases List.mem_append.mp hs' with hs' | hs'
        · exact .inl hs'
        · exact .inr ⟨_, List.mem_cons_self, List.mem_singleton.mp hs'⟩
    · exact .inr ⟨reg, List.mem_cons_of_mem _ hmem, heq⟩

end Requests

/-- An id handed out is the number of one of the eight places. -/
theorem TunerTable.Interned.id_eq {t t' : TunerTable} {name : List UInt8} {id : Option Int32}
    (h : t.Interned name id t') :
    id.map Int32.toNatClampNeg =
      (Intern.request hdhomerunMaxTuners t.keys (nameKey name)).1 := by
  rw [h.answer_eq]
  cases hreq : (Intern.request hdhomerunMaxTuners t.keys (nameKey name)).1 with
  | none => rfl
  | some i =>
    have hplace := Intern.getElem?_of_answer hreq
    rw [← h.keys_eq] at hplace
    obtain ⟨hlt, _⟩ := List.getElem?_eq_some_iff.mp hplace
    rw [TunerTable.length_keys] at hlt
    have h8 : i < 8 := Nat.lt_of_lt_of_le hlt t'.bound
    rw [Option.map_some, Option.map_some, Int32.toNatClampNeg_ofNat_of_lt (by omega)]

/-- An id given out is no negative number. -/
theorem TunerTable.Interned.ofNat_toNatClampNeg {t t' : TunerTable} {name : List UInt8}
    {id : Int32} (h : t.Interned name (some id) t') : Int32.ofNat id.toNatClampNeg = id := by
  have hanswer := h.answer_eq
  rw [← h.id_eq, Option.map_some, Option.map_some] at hanswer
  exact (Option.some.inj hanswer).symm

/-- So are all ids of a sequence of requests. -/
theorem Requests.ofNat_toNatClampNeg {t t' : TunerTable} {regs : List Registration}
    (h : Requests t regs t') {reg : Registration} (hmem : reg ∈ regs) {id : Int32}
    (hid : reg.id = some id) : Int32.ofNat id.toNatClampNeg = id := by
  induction h with
  | nil => exact nomatch hmem
  | cons hreg _ ih =>
    rcases List.mem_cons.mp hmem with rfl | hmem
    · cases hid
      exact hreg.ofNat_toNatClampNeg
    · exact ih hmem

/-- The requests as requests to an interning table. -/
theorem Requests.requests_eq {t t' : TunerTable} {regs : List Registration}
    (h : Requests t regs t') :
    Intern.requests hdhomerunMaxTuners t.keys (regs.map fun reg => nameKey (kernelName reg.name)) =
      (regs.map fun reg => (nameKey (kernelName reg.name), reg.id.map Int32.toNatClampNeg),
        t'.keys) := by
  induction h with
  | nil => rfl
  | cons hreg _ ih =>
    rw [List.map_cons, Intern.requests_cons, ← hreg.keys_eq, ih, ← hreg.id_eq]
    rfl

/-! ## One session -/

/-- A new tuner has no kernel id yet. -/
theorem HdhomerunTuner.mKernelId_new {name : String} {conf : TunerConf}
    {modelStr : Option String} {ret : Int} {t : HdhomerunTuner}
    (h : HdhomerunTuner.new name conf modelStr ret = some t) : t.mKernelId = -1 := by
  simp only [HdhomerunTuner.new] at h
  split at h
  · obtain ⟨model, _, rfl⟩ := Option.map_eq_some_iff.mp h
    rfl
  · cases h
    rfl

/-- Every result of a traversal comes from one of the items. -/
private theorem exists_of_mem_mapM {f : α → Option β} {as : List α} {bs : List β}
    (h : as.mapM f = some bs) {b : β} (hb : b ∈ bs) : ∃ a ∈ as, f a = some b := by
  induction as generalizing bs with
  | nil =>
    cases h
    exact nomatch hb
  | cons a as ih =>
    rw [List.mapM_cons] at h
    obtain ⟨b', hb', h⟩ := Option.bind_eq_some_iff.mp h
    obtain ⟨bs', hbs', h⟩ := Option.bind_eq_some_iff.mp h
    cases h
    rcases List.mem_cons.mp hb with rfl | hb
    · exact ⟨a, List.mem_cons_self, hb'⟩
    · obtain ⟨a', ha', hfa⟩ := ih hbs' hb
      exact ⟨a', List.mem_cons_of_mem _ ha', hfa⟩

/-- No tuner has an id before the registration. -/
theorem LibHdhomerun.mKernelId_of_mem_findTuners {lib : LibHdhomerun}
    {discovered : Option (List DiscoverDevice)} {tuners : List HdhomerunTuner}
    (h : lib.findTuners discovered = some tuners) : ∀ t ∈ tuners, t.mKernelId = -1 := by
  intro t ht
  unfold findTuners at h
  split at h
  · cases h
    exact nomatch ht
  · exact nomatch h
  · obtain ⟨lists, hlists, rfl⟩ := Option.map_eq_some_iff.mp h
    obtain ⟨ts, hts, ht⟩ := List.mem_flatten.mp ht
    obtain ⟨device, _, hdevice⟩ := exists_of_mem_mapM hlists hts
    unfold deviceTuners at hdevice
    split at hdevice
    · obtain ⟨all, hall, rfl⟩ := Option.map_eq_some_iff.mp hdevice
      obtain ⟨j, _, hj⟩ := exists_of_mem_mapM hall (List.mem_of_mem_filter ht)
      exact HdhomerunTuner.mKernelId_new hj
    · exact nomatch hdevice

namespace HdhomerunController

/-- Each tuner has the name of its request and the id of the answer. -/
def Numbered (c : HdhomerunController) : Prop :=
  c.mTuners.map (fun t => (t.mName, t.mKernelId)) =
    c.registrations.map fun reg => (reg.name, reg.id.getD (-1))

/-- The registration loop makes one request for each tuner and numbers the tuners by the
    answers. -/
theorem createDvbDevices_requests {n : Nat} {ts : List HdhomerunTuner}
    {results : Nat → KernelResults} (hok : ∀ j, (results j).Succeed) {table : TunerTable}
    (hlive : table.Live) (hts : ∀ t ∈ ts, t.mKernelId = -1) :
    ∃ c table', createDvbDevices n ts results table = some (c, table') ∧
      Requests table c.registrations table' ∧ c.Numbered ∧
      c.registrations.map (·.name) = ts.map (·.mName) := by
  induction ts generalizing results table with
  | nil => exact ⟨_, _, rfl, .nil table, rfl, rfl⟩
  | cons t ts ih =>
    obtain ⟨id, table₁, hioctl, hint⟩ :=
      Control.ioctl_interned hlive (hok 0) n t.mName t.mType t.mUseFullName
    have hrest : ∀ t ∈ ts, t.mKernelId = -1 := fun t ht => hts t (List.mem_cons_of_mem _ ht)
    obtain ⟨c, table', hloop, hreqs, hnum, hnames⟩ :=
      ih (fun j => hok (j + 1)) hint.live hrest
    simp only [createDvbDevices, hioctl, hloop, Option.map_some]
    refine ⟨_, _, rfl, .cons hint hreqs, ?_, ?_⟩
    · unfold Numbered at hnum ⊢
      rw [List.map_cons, List.map_cons, hnum]
      cases id with
      | none => rw [hts t List.mem_cons_self, Option.getD_none]
      | some id => rfl
    · rw [List.map_cons, List.map_cons, hnames]

end HdhomerunController

namespace Session

/-- The tuners found have distinct names of the usual form. -/
def WellNamed (s : Session) : Prop :=
  ∀ tuners, s.lib.findTuners s.discovered = some tuners →
    (tuners.map (·.mName)).Nodup ∧ ∀ t ∈ tuners, IsTunerName t.mName

/-- No kernel function fails. -/
def Succeeds (s : Session) : Prop := ∀ j, (s.results j).Succeed

end Session

/-! ## All sessions -/

/-- A loaded module, and the daemons started so far. -/
structure LoadedModule where
  table : TunerTable
  sessions : List HdhomerunController

namespace LoadedModule

/-- The module has been loaded, and there was no session yet. -/
def loaded : LoadedModule := ⟨.loaded, []⟩

/-- One more daemon is started. -/
def step (m : LoadedModule) (s : Session) : Option LoadedModule :=
  (HdhomerunController.new s m.table).map fun (c, table) => ⟨table, m.sessions ++ c.toList⟩

/-- All requests for registration ever made, in order. -/
def registrations (m : LoadedModule) : List Registration := m.sessions.flatMap (·.registrations)

/-- The table is what the registrations of all sessions make of it, and every session has its
    tuners. -/
structure Inv (m : LoadedModule) : Prop where
  requests : Requests .loaded m.registrations m.table
  names : ∀ reg ∈ m.registrations, IsTunerName reg.name
  numbered : ∀ c ∈ m.sessions, c.Numbered ∧ (c.mTuners.map (·.mName)).Nodup

/-- It holds before the first session. -/
theorem inv_loaded : loaded.Inv := ⟨.nil _, nofun, nofun⟩

/-- A session succeeds and keeps the invariant. -/
theorem Inv.step {m : LoadedModule} (h : m.Inv) {s : Session} (hnames : s.WellNamed)
    (hok : s.Succeeds) : ∃ m', m.step s = some m' ∧ m'.Inv := by
  unfold LoadedModule.step HdhomerunController.new
  cases hfind : s.lib.findTuners s.discovered with
  | none =>
    -- the daemon exits before it registers a tuner
    refine ⟨_, rfl, ?_⟩
    simp only [Option.toList_none, List.append_nil]
    exact h
  | some tuners =>
    obtain ⟨hnodup, hform⟩ := hnames tuners hfind
    have hperm : (HdhomerunController.sortTuners tuners).Perm tuners := List.mergeSort_perm _ _
    have hfresh : ∀ t ∈ HdhomerunController.sortTuners tuners, t.mKernelId = -1 :=
      fun t ht => LibHdhomerun.mKernelId_of_mem_findTuners hfind t (hperm.mem_iff.mp ht)
    obtain ⟨c, table, hloop, hreqs, hnum, hregs⟩ :=
      HdhomerunController.createDvbDevices_requests (n := tuners.length) hok
        (h.requests.live TunerTable.live_loaded) hfresh
    have htuners : c.mTuners.map (·.mName) = c.registrations.map (·.name) := by
      have hfst := congrArg (List.map Prod.fst) hnum
      rw [List.map_map, List.map_map] at hfst
      exact hfst
    have hlog : (m.sessions ++ [c]).flatMap (·.registrations) =
        m.registrations ++ c.registrations := by
      rw [List.flatMap_append, List.flatMap_singleton, registrations]
    simp only [hloop, Option.map_some]
    refine ⟨_, rfl, ?_, ?_, ?_⟩
    · rw [registrations, Option.toList_some, hlog]
      exact h.requests.append hreqs
    · rw [registrations, Option.toList_some, hlog]
      intro reg hreg
      rcases List.mem_append.mp hreg with hreg | hreg
      · exact h.names reg hreg
      · have hmem : reg.name ∈ (HdhomerunController.sortTuners tuners).map (·.mName) :=
          hregs ▸ List.mem_map_of_mem hreg
        obtain ⟨t, ht, hname⟩ := List.mem_map.mp hmem
        exact hname ▸ hform t (hperm.mem_iff.mp ht)
    · intro c' hc'
      rcases List.mem_append.mp hc' with hc' | hc'
      · exact h.numbered c' hc'
      · rw [List.mem_singleton.mp hc', htuners, hregs]
        exact ⟨hnum, (hperm.map _).nodup_iff.mpr hnodup⟩

/-! ## What the invariant says -/

namespace Inv

variable {m : LoadedModule}

/-- The ids of all registrations, seen as one sequence of requests for numbers. -/
private theorem requests_eq (h : m.Inv) :
    Intern.requests hdhomerunMaxTuners [] (m.registrations.map fun reg => CString.ofString reg.name) =
      (m.registrations.map fun reg =>
        (CString.ofString reg.name, reg.id.map Int32.toNatClampNeg), m.table.keys) := by
  have hkey : ∀ reg ∈ m.registrations,
      nameKey (kernelName reg.name) = CString.ofString reg.name :=
    fun reg hmem => (h.names reg hmem).nameKey_eq
  have heq := h.requests.requests_eq
  rw [List.map_congr_left hkey] at heq
  rw [show ([] : List (List UInt8)) = TunerTable.loaded.keys from rfl, heq]
  refine Prod.ext (List.map_congr_left fun reg hmem => ?_) rfl
  rw [hkey reg hmem]

/-- A successful request is an answer of the interning table. -/
private theorem mem_answers (h : m.Inv) {reg : Registration} (hmem : reg ∈ m.registrations)
    {id : Int32} (hid : reg.id = some id) :
    (CString.ofString reg.name, some id.toNatClampNeg) ∈
      (Intern.requests hdhomerunMaxTuners []
        (m.registrations.map fun reg => CString.ofString reg.name)).1 := by
  rw [h.requests_eq]
  refine List.mem_map.mpr ⟨reg, hmem, ?_⟩
  rw [hid, Option.map_some]

/-- The ids are numbers. -/
private theorem ofNat_toNatClampNeg (h : m.Inv) {reg : Registration}
    (hmem : reg ∈ m.registrations) {id : Int32} (hid : reg.id = some id) :
    Int32.ofNat id.toNatClampNeg = id :=
  h.requests.ofNat_toNatClampNeg hmem hid

/-- The name under which an id was handed out is the one that the kernel holds under it. -/
private theorem keys_getElem? (h : m.Inv) {reg : Registration} (hmem : reg ∈ m.registrations)
    {id : Int32} (hid : reg.id = some id) :
    m.table.keys[id.toNatClampNeg]? = some (CString.ofString reg.name) := by
  have hplace := Intern.getElem?_of_mem_answers (h.mem_answers hmem hid)
  rwa [h.requests_eq] at hplace

/-- The ids given out are the numbers below the number of devices. -/
theorem ids_iff (h : m.Inv) (id : Int32) :
    (∃ reg ∈ m.registrations, reg.id = some id) ↔ ∃ i < m.table.numOfDevices, id = Int32.ofNat i := by
  constructor
  · rintro ⟨reg, hmem, hid⟩
    obtain ⟨hlt, _⟩ := List.getElem?_eq_some_iff.mp (h.keys_getElem? hmem hid)
    rw [TunerTable.length_keys] at hlt
    exact ⟨id.toNatClampNeg, hlt, (h.ofNat_toNatClampNeg hmem hid).symm⟩
  · rintro ⟨i, hi, rfl⟩
    have hnew : i < (Intern.requests hdhomerunMaxTuners []
        (m.registrations.map fun reg => CString.ofString reg.name)).2.length := by
      rw [h.requests_eq, TunerTable.length_keys]
      exact hi
    obtain ⟨key, hkey⟩ := Intern.exists_answer_of_new (Nat.zero_le i) hnew
    rw [h.requests_eq] at hkey
    obtain ⟨reg, hmem, heq⟩ := List.mem_map.mp hkey
    obtain ⟨id, hid, hnat⟩ := Option.map_eq_some_iff.mp (Prod.ext_iff.mp heq).2
    exact ⟨reg, hmem, by rw [hid, ← hnat, h.ofNat_toNatClampNeg hmem hid]⟩

/-- Two registrations have the same id exactly if they have the same name. -/
theorem id_eq_iff (h : m.Inv) {reg reg' : Registration} (hmem : reg ∈ m.registrations)
    (hmem' : reg' ∈ m.registrations) {id id' : Int32} (hid : reg.id = some id)
    (hid' : reg'.id = some id') : id = id' ↔ reg.name = reg'.name := by
  have hvalid : Intern.Valid hdhomerunMaxTuners ([] : List (List UInt8)) :=
    ⟨List.nodup_nil, Nat.zero_le _⟩
  have hiff := Intern.answer_eq_iff hvalid (h.mem_answers hmem hid) (h.mem_answers hmem' hid')
  constructor
  · intro heq
    exact CString.ofString_injective (hiff.mp (congrArg _ heq))
  · intro heq
    rw [← h.ofNat_toNatClampNeg hmem hid, ← h.ofNat_toNatClampNeg hmem' hid',
      hiff.mpr (congrArg _ heq)]

/-- The kernel finds the name of a registration under its id. -/
theorem nameOf_eq (h : m.Inv) {reg : Registration} (hmem : reg ∈ m.registrations) {id : Int32}
    (hid : reg.id = some id) : m.table.nameOf id = some (CString.ofString reg.name) := by
  have hkey := h.keys_getElem? hmem hid
  rw [TunerTable.keys, List.getElem?_map] at hkey
  obtain ⟨name, hname, htake⟩ := Option.map_eq_some_iff.mp hkey
  -- the name in the table is itself one of ten bytes, so the key is the whole of it
  have hten : nameKey name = name := by
    rcases h.requests.mem_names (List.mem_of_getElem? hname) with hmem | ⟨reg', hmem', rfl⟩
    · exact absurd hmem List.not_mem_nil
    · rw [(h.names reg' hmem').nameKey_eq, (h.names reg' hmem').kernelName_eq]
  rw [hten] at htake
  rw [← h.ofNat_toNatClampNeg hmem hid, ← htake]
  exact (h.requests.live TunerTable.live_loaded).nameOf_ofNat hname

/-- The registrations of a session are among all registrations. -/
private theorem mem_registrations {c : HdhomerunController} (hc : c ∈ m.sessions)
    {reg : Registration} (hreg : reg ∈ c.registrations) : reg ∈ m.registrations :=
  List.mem_flatMap.mpr ⟨c, hc, hreg⟩

/-- The tuner with an id of the kernel made the request that got it. -/
private theorem registration_of_tuner (h : m.Inv) {c : HdhomerunController} (hc : c ∈ m.sessions)
    {t : HdhomerunTuner} (ht : t ∈ c.mTuners) (hid : t.mKernelId ≠ -1) :
    ∃ reg ∈ c.registrations, reg.name = t.mName ∧ reg.id = some t.mKernelId := by
  have hmem : (t.mName, t.mKernelId) ∈ c.mTuners.map fun t => (t.mName, t.mKernelId) :=
    List.mem_map_of_mem ht
  rw [(h.numbered c hc).1] at hmem
  obtain ⟨reg, hreg, heq⟩ := List.mem_map.mp hmem
  obtain ⟨hname, hval⟩ := Prod.ext_iff.mp heq
  simp only at hname hval
  cases hreg' : reg.id with
  | none =>
    rw [hreg', Option.getD_none] at hval
    exact absurd hval.symm hid
  | some id =>
    rw [hreg', Option.getD_some] at hval
    exact ⟨reg, hreg, hname, by rw [hreg', hval]⟩

/-- Behind every registration with an id stands a tuner of that session. -/
private theorem tuner_of_registration (h : m.Inv) {c : HdhomerunController} (hc : c ∈ m.sessions)
    {reg : Registration} (hreg : reg ∈ c.registrations) {id : Int32} (hid : reg.id = some id) :
    ∃ t ∈ c.mTuners, t.mName = reg.name ∧ t.mKernelId = id := by
  have hmem : (reg.name, reg.id.getD (-1)) ∈
      c.registrations.map fun reg => (reg.name, reg.id.getD (-1)) := List.mem_map_of_mem hreg
  rw [← (h.numbered c hc).1] at hmem
  obtain ⟨t, ht, heq⟩ := List.mem_map.mp hmem
  obtain ⟨hname, hval⟩ := Prod.ext_iff.mp heq
  exact ⟨t, ht, hname, by rw [← Option.getD_some (a := id) (b := -1), ← hid]; exact hval⟩

/-- No id that was handed out is the -1 of an unregistered tuner. -/
private theorem id_ne_neg_one (h : m.Inv) {reg : Registration} (hmem : reg ∈ m.registrations)
    {id : Int32} (hid : reg.id = some id) : id ≠ -1 := by
  intro heq
  have hnat := h.ofNat_toNatClampNeg hmem hid
  rw [heq] at hnat
  exact absurd hnat (by decide)

/-- `GetTuner` finds the tuner whose name the kernel holds under the id. -/
theorem getTuner_eq (h : m.Inv) {c : HdhomerunController} (hc : c ∈ m.sessions)
    {reg : Registration} (hreg : reg ∈ c.registrations) {id : Int32} (hid : reg.id = some id) :
    ∃ t ∈ c.mTuners, HdhomerunController.getTuner c.mTuners id = some t ∧
      ∀ t' ∈ c.mTuners, m.table.nameOf id = some (CString.ofString t'.mName) ↔ t' = t := by
  have hmem := mem_registrations hc hreg
  obtain ⟨t₀, ht₀, hname₀, hid₀⟩ := h.tuner_of_registration hc hreg hid
  -- the search ends at some tuner with this id
  obtain ⟨t, hfind⟩ : ∃ t, HdhomerunController.getTuner c.mTuners id = some t := by
    rw [← Option.isSome_iff_exists, HdhomerunController.getTuner, List.find?_isSome]
    exact ⟨t₀, ht₀, beq_iff_eq.mpr hid₀⟩
  have ht : t ∈ c.mTuners := List.mem_of_find?_eq_some hfind
  have hbeq := List.find?_some hfind
  have htid : t.mKernelId = id := beq_iff_eq.mp hbeq
  -- and its name is that of the request
  obtain ⟨reg', hreg', hname', hid'⟩ :=
    h.registration_of_tuner hc ht (htid ▸ h.id_ne_neg_one hmem hid)
  have hname : t.mName = reg.name := by
    rw [← hname']
    exact (h.id_eq_iff (mem_registrations hc hreg') hmem hid' hid).mp htid
  refine ⟨t, ht, hfind, fun t' ht' => ?_⟩
  rw [h.nameOf_eq hmem hid, ← hname]
  constructor
  · intro heq
    have hsame : t.mName = t'.mName := CString.ofString_injective (Option.some.inj heq)
    exact (List.inj_on_of_nodup_map (h.numbered c hc).2 ht ht' hsame).symm
  · intro heq
    rw [heq]

/-- A session finds no tuner under an id that it did not register. -/
theorem getTuner_eq_none (h : m.Inv) {c : HdhomerunController} (hc : c ∈ m.sessions) {id : Int32}
    (hid : 0 ≤ id) (hreg : ∀ reg ∈ c.registrations, reg.id ≠ some id) :
    HdhomerunController.getTuner c.mTuners id = none := by
  rw [HdhomerunController.getTuner, List.find?_eq_none]
  intro t ht heq
  have htid : t.mKernelId = id := beq_iff_eq.mp heq
  have hne : t.mKernelId ≠ -1 := by
    intro hneg
    rw [← htid, hneg] at hid
    exact absurd hid (by decide)
  obtain ⟨reg, hmem, _, hid'⟩ := h.registration_of_tuner hc ht hne
  exact hreg reg hmem (htid ▸ hid')

end Inv

/-- The ids handed out so far are stable and tell the tuners apart, and every daemon addresses
    the tuner that the kernel means. -/
structure StableIds (m : LoadedModule) : Prop where
  /-- the ids are those below the number of devices -/
  ids_iff : ∀ id, (∃ reg ∈ m.registrations, reg.id = some id) ↔
    ∃ i < m.table.numOfDevices, id = Int32.ofNat i
  numOfDevices_le : m.table.numOfDevices ≤ hdhomerunMaxTuners
  /-- equal ids mean equal names, in whatever sessions they were handed out -/
  id_eq_iff : ∀ reg ∈ m.registrations, ∀ reg' ∈ m.registrations, ∀ id id',
    reg.id = some id → reg'.id = some id' → (id = id' ↔ reg.name = reg'.name)
  /-- a rejected request changes nothing -/
  rejected : ∀ reg ∈ m.registrations, reg.id = none → reg.after = reg.before
  /-- under an id registered in its session, a daemon has the tuner of that name -/
  getTuner_eq : ∀ c ∈ m.sessions, ∀ id, (∃ reg ∈ c.registrations, reg.id = some id) →
    ∃ t ∈ c.mTuners, HdhomerunController.getTuner c.mTuners id = some t ∧
      ∀ t' ∈ c.mTuners, m.table.nameOf id = some (CString.ofString t'.mName) ↔ t' = t
  /-- and under no other id it has one -/
  getTuner_eq_none : ∀ c ∈ m.sessions, ∀ id, 0 ≤ id →
    (∀ reg ∈ c.registrations, reg.id ≠ some id) →
    HdhomerunController.getTuner c.mTuners id = none

/-- What the invariant says of the ids. -/
theorem Inv.stableIds {m : LoadedModule} (h : m.Inv) : m.StableIds where
  ids_iff := h.ids_iff
  numOfDevices_le := m.table.bound
  id_eq_iff _ hmem _ hmem' _ _ hid hid' := h.id_eq_iff hmem hmem' hid hid'
  rejected := h.requests.rejected
  getTuner_eq _ hc _ hreg := by
    obtain ⟨reg, hmem, hid⟩ := hreg
    exact h.getTuner_eq hc hmem hid
  getTuner_eq_none _ hc _ := h.getTuner_eq_none hc

/-- Every sequence of daemon sessions on one loaded module runs without a fault and leaves
    stable ids. -/
theorem stableIds_of_sessions (sessions : List Session) (hnames : ∀ s ∈ sessions, s.WellNamed)
    (hok : ∀ s ∈ sessions, s.Succeeds) :
    ∃ m, Run.exec step loaded sessions = some m ∧ m.StableIds := by
  have hstep : ∀ (m : LoadedModule) (s : Session), m.Inv → s.WellNamed ∧ s.Succeeds →
      ∃ m', m.step s = some m' ∧ m'.Inv := fun m s h hs => h.step hs.1 hs.2
  obtain ⟨m, hrun, hinv⟩ := Run.exec_of_invariant hstep inv_loaded
    (fun s hs => (⟨hnames s hs, hok s hs⟩ : s.WellNamed ∧ s.Succeeds))
  exact ⟨m, hrun, hinv.stableIds⟩

/-! ### Two sessions -/

/-- A device with two tuners, of which the second daemon uses only the second. -/
private def lib (disabled : Option String) : LibHdhomerun where
  discoverValidateDeviceId _ := true
  deviceGetName _ _ j := if j = 0 then "1234ABCD-0" else "1234ABCD-1"
  deviceGetModelStr _ _ _ := some "hdhomerun_atsc"
  deviceSetTunerFilter _ _ _ := 1
  conf name := ⟨none, none, if some name = disabled then some "true" else none⟩

/-- No kernel call fails. -/
private def noFailure : KernelResults where
  openControl := true
  accessOk := true
  copyFromUser := 0
  classCreate := 0
  allocChrdevRegion := 0
  chrdevRegion := ⟨250, 0⟩
  platformDeviceRegisterSimple := 0
  probeKzalloc := true
  dvbRegisterAdapter := 0
  dvbDmxInit := 0
  dvbDmxdevInit := 0
  addHwFrontend := 0
  addMemFrontend := 0
  connectFrontend := 0
  dvbAttach := true
  dvbRegisterFrontend := 0
  dataKzalloc := true
  getZeroedPage := true
  cdevAdd := 0
  deviceCreate := 0
  copyToUser := 0

/-- All kernel calls succeed. -/
private theorem noFailure_succeed : noFailure.Succeed := by
  constructor <;> decide

/-- A session that discovers one device with two tuners; one of them may be disabled. -/
private def session (disabled : Option String) : Session :=
  ⟨lib disabled, some [⟨0x1234ABCD, 0, 2⟩], fun _ => noFailure⟩

/-- The name of the first tuner has the form of a tuner's name. -/
private theorem isTunerName_zero : IsTunerName "1234ABCD-0" :=
  ⟨"1234ABCD".toList, '0', by decide, by decide, List.all_eq_true.mp (by decide), by decide⟩

/-- So has that of the second. -/
private theorem isTunerName_one : IsTunerName "1234ABCD-1" :=
  ⟨"1234ABCD".toList, '1', by decide, by decide, List.all_eq_true.mp (by decide), by decide⟩

/-- A session is well named when the names it registers are different tuner names. -/
private theorem wellNamed_session {disabled : Option String} (names : List String)
    (hfind : ((session disabled).lib.findTuners (session disabled).discovered).map
      (List.map HdhomerunTuner.mName) = some names)
    (hnodup : names.Nodup) (hform : ∀ name ∈ names, IsTunerName name) :
    (session disabled).WellNamed := by
  intro tuners h
  rw [h, Option.map_some] at hfind
  obtain rfl := Option.some.inj hfind
  exact ⟨hnodup, fun t ht => hform _ (List.mem_map_of_mem ht)⟩

/-- A session with two tuners, and one in which the first of them is disabled. -/
theorem stableIds_of_two_sessions :
    ∃ m, Run.exec step loaded [session none, session (some "1234ABCD-0")] = some m ∧
      m.StableIds := by
  have hboth : (session none).WellNamed := by
    refine wellNamed_session ["1234ABCD-0", "1234ABCD-1"] (by decide) (by decide) ?_
    simpa using ⟨isTunerName_zero, isTunerName_one⟩
  have hone : (session (some "1234ABCD-0")).WellNamed := by
    refine wellNamed_session ["1234ABCD-1"] (by decide) (by decide) ?_
    simpa using isTunerName_one
  refine stableIds_of_sessions _ ?_ ?_
  · simpa using ⟨hboth, hone⟩
  · simpa [Session.Succeeds] using ⟨fun _ => noFailure_succeed, fun _ => noFailure_succeed⟩

end LoadedModule

end DvbHdhomerun
