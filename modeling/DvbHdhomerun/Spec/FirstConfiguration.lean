import DvbHdhomerun.Spec.DiscoveryOrder
import DvbHdhomerun.Spec.IniMeaning
import DvbHdhomerun.Spec.NameFields
import DvbHdhomerun.User.TunerConf

/-!
# From the ini file to the frontends

The frontend of a tuner is the one that the ini file and the tuner's model gave it when a
daemon registered its name for the first time. Later daemons get the old id, and what their
ini files say about the tuner's type and name changes nothing until the module is loaded
again: `first_configuration`.
-/

namespace DvbHdhomerun

/-! ## What the text says about a tuner -/

/-- The lines of the ini file, none when it cannot be opened. -/
def DaemonStart.lines (s : DaemonStart) : List (List UInt8) :=
  match s.iniFile with
  | none => []
  | some file => Lines.split '\n'.toUInt8 file

/-- The first value of the key in the tuner's section is this one. -/
def Says (lines : List (List UInt8)) (name key value : String) : Prop :=
  ConfIniFile.FirstEntry lines (CString.ofString name) (CString.ofString key)
    (CString.ofString value)

/-- The type of a tuner: the one in its section, or the one of its model when there is none of
    the three. -/
inductive ConfiguredType (lines : List (List UInt8)) (name : String) (model : Option String) :
    TunerType → Prop
  | dvbc (h : Says lines name "tuner_type" "DVB-C") : ConfiguredType lines name model .dvbc
  | dvbt (h : Says lines name "tuner_type" "DVB-T") : ConfiguredType lines name model .dvbt
  | atsc (h : Says lines name "tuner_type" "ATSC") : ConfiguredType lines name model .atsc
  | detected {m : String} (hdvbc : ¬ Says lines name "tuner_type" "DVB-C")
    (hdvbt : ¬ Says lines name "tuner_type" "DVB-T")
    (hatsc : ¬ Says lines name "tuner_type" "ATSC") (hmodel : model = some m) :
    ConfiguredType lines name model (HdhomerunTuner.modelType m)

/-- A tuner that a start of the daemon discovers and does not find disabled, with the type and
    the naming that its ini file asks for. -/
structure Configured (s : DaemonStart) (name : String) (type : TunerType) (useFullName : Bool) :
    Prop where
  discovered : ∃ devices device j, s.session.discovered = some devices ∧ device ∈ devices ∧
    j < device.tunerCount.toNat ∧
    name = s.session.lib.deviceGetName device.deviceId device.ipAddr j ∧
    ConfiguredType s.lines name
      (s.session.lib.deviceGetModelStr device.deviceId device.ipAddr j) type
  fullName : useFullName = true ↔ Says s.lines name "use_full_name" "true"
  enabled : ¬ Says s.lines name "disable" "true"

/-! ### The constructor reads it so -/

/-- Two byte strings with the same text are equal. -/
private theorem stringOfBytes_injective {a b : List UInt8} (h : stringOfBytes a = stringOfBytes b) :
    a = b := by
  have hlist := congrArg String.toList h
  simp only [stringOfBytes, String.toList_ofList] at hlist
  apply List.map_injective_iff.mpr _ hlist
  intro x y hxy
  have hvalid : ∀ b : UInt8, (Char.ofNat b.toNat).toNat = b.toNat := by
    intro b
    have hb := b.toNat_lt
    have hchar : b.toNat.isValidChar := .inl (by omega)
    rw [Char.ofNat, dif_pos hchar]
    rfl
  have hnat := congrArg Char.toNat hxy
  rw [hvalid, hvalid] at hnat
  exact UInt8.toNat_inj.mp hnat

/-- A value reads as an ASCII string exactly if it consists of its bytes. -/
private theorem stringOfBytes_eq_iff {bytes : List UInt8} {s : String}
    (hs : stringOfBytes (CString.ofString s) = s) :
    stringOfBytes bytes = s ↔ bytes = CString.ofString s := by
  constructor
  · intro h
    apply stringOfBytes_injective
    rw [h, hs]
  · intro h
    rw [h, hs]

/-- The first value that the lines give to a key of the tuner's section, as a string. -/
def said (lines : List (List UInt8)) (name key : String) : Option String :=
  (ConfIniFile.firstValue [] lines (CString.ofString name) (CString.ofString key)).map stringOfBytes

/-- What a file says as text. -/
private theorem said_eq_some_iff {lines : List (List UInt8)} {name key value : String}
    (hvalue : stringOfBytes (CString.ofString value) = value) :
    said lines name key = some value ↔ Says lines name key value := by
  unfold said Says
  rw [ConfIniFile.firstEntry_iff, Option.map_eq_some_iff]
  simp [stringOfBytes_eq_iff hvalue]

/-- The value a tuner takes from its section is what the file says. -/
private theorem secValue_eq {conf : ConfIniFile} {lines : List (List UInt8)}
    (hconf : ∀ sect key, ConfIniFile.lookup conf.mSectionKeyValue sect key =
      ConfIniFile.firstValue [] lines sect key) (name key : String) :
    HdhomerunTuner.secValue conf name key = said lines name key := by
  unfold HdhomerunTuner.secValue said
  rw [ConfIniFile.getSecValue_eq, hconf]
  cases ConfIniFile.firstValue [] lines (CString.ofString name) (CString.ofString key) with
  | none => rfl
  | some value => rfl

/-- What the constructor finds in the ini file is what the lines say. -/
private theorem conf_eq_said {s : DaemonStart} (hnul : ∀ file, s.iniFile = some file → 0 ∉ file)
    (name : String) :
    s.session.lib.conf name =
      ⟨said s.lines name "tuner_type", said s.lines name "use_full_name",
        said s.lines name "disable"⟩ := by
  apply Option.some.inj
  rw [← s.conf_eq name]
  unfold DaemonStart.lines
  cases hfile : s.iniFile with
  | none => rfl
  | some file =>
    have hlookup := (ConfIniFile.Reader.foldl_after ⟨[], mapClear fun _ => none⟩
      (Lines.split '\n'.toUInt8 file)).2
    have hsec := @secValue_eq ⟨_⟩ _ hlookup
    simp [HdhomerunTuner.readConf, ConfIniFile.openIniFile,
      ConfIniFile.readFile_eq _ (hnul file hfile), hsec]

/-- What a tuner object has of the ini file and its model. -/
private theorem new_config {name : String} {conf : TunerConf} {model : Option String} {ret : Int}
    {t : HdhomerunTuner} (h : HdhomerunTuner.new name conf model ret = some t) :
    t.mName = name ∧ t.mUseFullName = decide (conf.useFullName = some "true") ∧
      t.mIsDisabled = decide (conf.disable = some "true") ∧
      (HdhomerunTuner.confType conf.tunerType = t.mType ∧ t.mType ≠ .notSet ∨
        HdhomerunTuner.confType conf.tunerType = .notSet ∧
          ∃ m, model = some m ∧ t.mType = HdhomerunTuner.modelType m) := by
  unfold HdhomerunTuner.new at h
  simp only at h
  split at h
  · rename_i hnotSet
    obtain ⟨m, hmodel, rfl⟩ := Option.map_eq_some_iff.mp h
    exact ⟨rfl, rfl, rfl, .inr ⟨hnotSet, m, hmodel, rfl⟩⟩
  · rename_i hset
    cases h
    exact ⟨rfl, rfl, rfl, .inl ⟨rfl, hset⟩⟩

/-- The type of a tuner object is the configured one. -/
private theorem configuredType_of_confType {lines : List (List UInt8)} {name : String}
    {model : Option String} {type : TunerType}
    (h : HdhomerunTuner.confType (said lines name "tuner_type") = type ∧ type ≠ .notSet ∨
      HdhomerunTuner.confType (said lines name "tuner_type") = .notSet ∧
        ∃ m, model = some m ∧ type = HdhomerunTuner.modelType m) :
    ConfiguredType lines name model type := by
  have hdvbc : said lines name "tuner_type" = some "DVB-C" ↔ _ := said_eq_some_iff (by decide)
  have hdvbt : said lines name "tuner_type" = some "DVB-T" ↔ _ := said_eq_some_iff (by decide)
  have hatsc : said lines name "tuner_type" = some "ATSC" ↔ _ := said_eq_some_iff (by decide)
  unfold HdhomerunTuner.confType at h
  split at h
  · rename_i hsaid
    cases h with
    | inl h => exact h.1 ▸ .dvbc (hdvbc.mp hsaid)
    | inr h => exact TunerType.noConfusion h.1
  · rename_i hnot₁
    split at h
    · rename_i hsaid
      cases h with
      | inl h => exact h.1 ▸ .dvbt (hdvbt.mp hsaid)
      | inr h => exact TunerType.noConfusion h.1
    · rename_i hnot₂
      split at h
      · rename_i hsaid
        cases h with
        | inl h => exact h.1 ▸ .atsc (hatsc.mp hsaid)
        | inr h => exact TunerType.noConfusion h.1
      · rename_i hnot₃
        cases h with
        | inl h => exact absurd h.1.symm h.2
        | inr h =>
          obtain ⟨-, m, hmodel, rfl⟩ := h
          exact .detected (fun hs => hnot₁ (hdvbc.mpr hs)) (fun hs => hnot₂ (hdvbt.mpr hs))
            (fun hs => hnot₃ (hatsc.mpr hs)) hmodel

/-- The tuners of all devices, and all the tuners of one device. -/
private theorem findTuners_some {lib : LibHdhomerun} {devices : List DiscoverDevice}
    {tuners : List HdhomerunTuner} (h : lib.findTuners (some devices) = some tuners) :
    ∃ lists, devices.mapM lib.deviceTuners = some lists ∧ tuners = lists.flatten := by
  cases devices with
  | nil => cases h
  | cons device devices =>
    obtain ⟨lists, hlists, rfl⟩ := Option.map_eq_some_iff.mp h
    exact ⟨lists, hlists, rfl⟩

/-- The tuners of a device are those built for it, without the disabled ones. -/
private theorem deviceTuners_some {lib : LibHdhomerun} {device : DiscoverDevice}
    {ts : List HdhomerunTuner} (h : lib.deviceTuners device = some ts) :
    ∃ all, (List.range device.tunerCount.toNat).mapM (lib.newTuner device) = some all ∧
      ts = all.filter fun t => !t.mIsDisabled := by
  unfold LibHdhomerun.deviceTuners at h
  split at h
  · obtain ⟨all, hall, rfl⟩ := Option.map_eq_some_iff.mp h
    exact ⟨all, hall, rfl⟩
  · cases h

/-- The tuners of a start are the discovered ones that are not disabled. -/
private theorem mem_findTuners {lib : LibHdhomerun} {devices : List DiscoverDevice}
    {tuners : List HdhomerunTuner} (h : lib.findTuners (some devices) = some tuners)
    {t : HdhomerunTuner} :
    t ∈ tuners ↔ ∃ device j, device ∈ devices ∧ j < device.tunerCount.toNat ∧
      lib.newTuner device j = some t ∧ t.mIsDisabled = false := by
  obtain ⟨lists, hlists, rfl⟩ := findTuners_some h
  rw [List.mem_flatten]
  constructor
  · rintro ⟨ts, hts, ht⟩
    obtain ⟨device, hmem, hdev⟩ := (List.mem_mapM_some hlists).mp hts
    obtain ⟨all, hall, rfl⟩ := deviceTuners_some hdev
    obtain ⟨hall', hdisabled⟩ := List.mem_filter.mp ht
    obtain ⟨j, hj, hnew⟩ := (List.mem_mapM_some hall).mp hall'
    exact ⟨device, j, hmem, List.mem_range.mp hj, hnew, by simpa using hdisabled⟩
  · rintro ⟨device, j, hmem, hj, hnew, hdisabled⟩
    obtain ⟨ts, hdev⟩ := Option.isSome_iff_exists.mp (List.isSome_of_mapM_some hlists hmem)
    refine ⟨ts, (List.mem_mapM_some hlists).mpr ⟨device, hmem, hdev⟩, ?_⟩
    obtain ⟨all, hall, rfl⟩ := deviceTuners_some hdev
    apply List.mem_filter.mpr
    exact ⟨(List.mem_mapM_some hall).mpr ⟨j, List.mem_range.mpr hj, hnew⟩, by simpa using hdisabled⟩

/-- No tuner was without a type when a start finds its tuners. -/
private theorem exists_newTuner {lib : LibHdhomerun} {devices : List DiscoverDevice}
    {tuners : List HdhomerunTuner} (h : lib.findTuners (some devices) = some tuners)
    {device : DiscoverDevice} (hdevice : device ∈ devices) {j : Nat}
    (hj : j < device.tunerCount.toNat) : ∃ t, lib.newTuner device j = some t := by
  obtain ⟨lists, hlists, -⟩ := findTuners_some h
  obtain ⟨ts, hts⟩ := Option.isSome_iff_exists.mp (List.isSome_of_mapM_some hlists hdevice)
  obtain ⟨all, hall, -⟩ := deviceTuners_some hts
  exact Option.isSome_iff_exists.mp (List.isSome_of_mapM_some hall (List.mem_range.mpr hj))

section Start

variable {s : DaemonStart} (hnul : ∀ file, s.iniFile = some file → 0 ∉ file)
  {tuners : List HdhomerunTuner}
  (hfind : s.session.lib.findTuners s.session.discovered = some tuners)
include hnul hfind

/-- Every tuner the daemon has found is configured. -/
private theorem configured_of_mem {t : HdhomerunTuner} (ht : t ∈ tuners) :
    Configured s t.mName t.mType t.mUseFullName := by
  cases hdiscovered : s.session.discovered with
  | none =>
    rw [hdiscovered] at hfind
    cases hfind
    exact absurd ht List.not_mem_nil
  | some devices =>
    rw [hdiscovered] at hfind
    obtain ⟨device, j, hmem, hj, hnew, hdisabled⟩ := (mem_findTuners hfind).mp ht
    obtain ⟨hname, hfull, hdisable, htype⟩ := new_config hnew
    rw [conf_eq_said hnul, ← hname] at hfull hdisable htype
    have htype' := configuredType_of_confType htype
    refine ⟨⟨devices, device, j, hdiscovered, hmem, hj, hname, htype'⟩, ?_, ?_⟩
    · rw [hfull, decide_eq_true_eq]
      exact said_eq_some_iff (by decide)
    · intro hsays
      rw [hdisabled] at hdisable
      exact of_decide_eq_false hdisable.symm ((said_eq_some_iff (by decide)).mpr hsays)

/-- A name that is configured belongs to a tuner the daemon has found. -/
private theorem mem_of_configured {name : String} {type : TunerType} {useFullName : Bool}
    (h : Configured s name type useFullName) : ∃ t ∈ tuners, t.mName = name := by
  obtain ⟨devices, device, j, hdiscovered, hmem, hj, hname, -⟩ := h.discovered
  rw [hdiscovered] at hfind
  obtain ⟨t, hnew⟩ := exists_newTuner hfind hmem hj
  obtain ⟨htname, -, hdisable, -⟩ := new_config hnew
  rw [← hname] at htname
  refine ⟨t, (mem_findTuners hfind).mpr ⟨device, j, hmem, hj, hnew, ?_⟩, htname⟩
  rw [hdisable, conf_eq_said hnul, ← hname]
  apply decide_eq_false
  exact fun hsaid => h.enabled ((said_eq_some_iff (by decide)).mp hsaid)

end Start

/-! ## The entries of a start -/

namespace TunerTable

/-- Some entry has the name of the request. -/
def HasName (devs : List PlatformDevice) (arg : RegisterTunerData) : Prop :=
  ∃ dev ∈ devs, ∃ hdhomerun, dev.drvdata = some hdhomerun ∧
    CString.strncmp arg.name.toList hdhomerun.tunerData.name.toList 10 = 0

/-- A name keeps its entry. -/
theorem HasName.append {devs : List PlatformDevice} {arg : RegisterTunerData}
    (h : HasName devs arg) (new : List PlatformDevice) : HasName (devs ++ new) arg := by
  obtain ⟨dev, hdev, hrest⟩ := h
  exact ⟨dev, List.mem_append_left new hdev, hrest⟩

/-- The search that comes to an end finds the name if it is there. -/
theorem hasName_iff {devs : List PlatformDevice} {arg : RegisterTunerData} {found : Option Int32}
    (h : findTuner arg devs = some found) : HasName devs arg ↔ found ≠ none := by
  induction devs with
  | nil =>
    cases h
    simp [HasName]
  | cons dev devs ih =>
    rw [findTuner] at h
    cases hdrv : dev.drvdata with
    | none => simp [hdrv] at h
    | some hdhomerun =>
      simp only [hdrv] at h
      by_cases hcmp : CString.strncmp arg.name.toList hdhomerun.tunerData.name.toList 10 = 0
      · rw [if_pos hcmp] at h
        cases h
        simp [HasName, hdrv, hcmp]
      · rw [if_neg hcmp] at h
        rw [← ih h]
        simp [HasName, hdrv, hcmp]

/-- The entry of a new tuner. -/
def entryOf (i : Nat) (arg : RegisterTunerData) : PlatformDevice :=
  ⟨Int32.ofNat i, some (newHdhomerun i arg)⟩

/-- A request finds the name or a full table and adds nothing, or it adds an entry. -/
theorem answer_entries {devs devs' : List PlatformDevice} {arg : RegisterTunerData}
    {id : Option Int32} (h : answer devs arg = some (id, devs')) :
    devs' = devs ∧ (hdhomerunMaxTuners ≤ devs.length ∨ HasName devs arg) ∨
      devs' = devs ++ [entryOf devs.length arg] ∧ ¬ HasName devs arg := by
  unfold answer at h
  cases hfind : findTuner arg devs with
  | none => simp [hfind] at h
  | some found =>
    have hname := hasName_iff hfind
    cases found with
    | some known =>
      simp only [hfind, Option.some.injEq, Prod.mk.injEq] at h
      exact .inl ⟨h.2.symm, .inr (hname.mpr (Option.some_ne_none _))⟩
    | none =>
      simp only [hfind] at h
      split at h
      · cases h
        exact .inr ⟨rfl, fun hhas => hname.mp hhas rfl⟩
      · cases h
        exact .inl ⟨rfl, .inl (by omega)⟩

/-- The entry of a request has its name. -/
theorem hasName_entryOf (devs : List PlatformDevice) (i : Nat) (arg : RegisterTunerData) :
    HasName (devs ++ [entryOf i arg]) arg :=
  ⟨entryOf i arg, List.mem_append_right _ List.mem_cons_self, _, rfl,
    CString.strncmp_eq_zero_iff.mpr rfl⟩

end TunerTable

open TunerTable

namespace HdhomerunController

/-- The request that a tuner makes among `n`. -/
abbrev requestOf (n : Nat) (t : HdhomerunTuner) : RegisterTunerData :=
  Control.registerTunerData n t.mName t.mType t.mUseFullName

/-- An entry at `i` that a tuner has made, whose name no entry had before. -/
def MadeBy (n : Nat) (devs : List PlatformDevice) (i : Nat) (dev : PlatformDevice)
    (t : HdhomerunTuner) : Prop :=
  dev = entryOf i (requestOf n t) ∧ ¬ HasName devs (requestOf n t)

/-- The registration of some tuners keeps the entries, adds those of tuners with new names, and
    leaves no tuner without one as long as there is room. -/
theorem registerAll_entries {n : Nat} {ts ts' : List HdhomerunTuner}
    {devs devs' : List PlatformDevice} (h : registerAll n ts devs = some (ts', devs')) :
    (∃ new, devs' = devs ++ new) ∧
      (∀ i dev, devs'[i]? = some dev → devs[i]? = some dev ∨ ∃ t ∈ ts, MadeBy n devs i dev t) ∧
      ∀ t ∈ ts, hdhomerunMaxTuners ≤ devs'.length ∨ HasName devs' (requestOf n t) := by
  induction ts generalizing devs ts' with
  | nil =>
    cases h
    exact ⟨⟨[], (List.append_nil _).symm⟩, fun i dev hdev => .inl hdev,
      fun t ht => absurd ht List.not_mem_nil⟩
  | cons t ts ih =>
    obtain ⟨⟨id, devs₁⟩, hanswer, hrest⟩ := Option.bind_eq_some_iff.mp h
    obtain ⟨⟨ts₁, devs₂⟩, hrest, hsame⟩ := Option.map_eq_some_iff.mp hrest
    cases hsame
    obtain ⟨⟨new, rfl⟩, hentries, hnames⟩ := ih hrest
    -- what the first request does to the table
    obtain ⟨⟨first, hfirst⟩, hmade, hname⟩ : (∃ first, devs₁ = devs ++ first) ∧
        (∀ i dev, devs₁[i]? = some dev → devs[i]? = some dev ∨ MadeBy n devs i dev t) ∧
        (hdhomerunMaxTuners ≤ devs₁.length ∨ HasName devs₁ (requestOf n t)) := by
      cases answer_entries hanswer with
      | inl hsame =>
        obtain ⟨rfl, hname⟩ := hsame
        exact ⟨⟨[], (List.append_nil _).symm⟩, fun i dev hdev => .inl hdev, hname⟩
      | inr hadded =>
        obtain ⟨rfl, hnot⟩ := hadded
        refine ⟨⟨_, rfl⟩, fun i dev hdev => ?_, .inr (hasName_entryOf _ _ _)⟩
        rw [List.getElem?_append] at hdev
        split at hdev
        · exact .inl hdev
        · rename_i hlast
          have hi : i = devs.length := by
            have hbound := (List.getElem?_eq_some_iff.mp hdev).1
            simp at hbound
            omega
          subst hi
          simp at hdev
          exact .inr ⟨hdev.symm, hnot⟩
    refine ⟨⟨first ++ new, by rw [hfirst, List.append_assoc]⟩, fun i dev hdev => ?_,
      fun t' ht => ?_⟩
    · -- an entry behind the first request is there before it, or new, or comes from a later one
      cases hentries i dev hdev with
      | inl hold =>
        cases hmade i dev hold with
        | inl hold => exact .inl hold
        | inr hmade => exact .inr ⟨t, List.mem_cons_self, hmade⟩
      | inr hlater =>
        obtain ⟨t', ht', hdev', hnot⟩ := hlater
        refine .inr ⟨t', List.mem_cons_of_mem _ ht', hdev', fun hhas => hnot ?_⟩
        rw [hfirst]
        exact hhas.append first
    · cases List.mem_cons.mp ht with
      | inl heq =>
        subst heq
        cases hname with
        | inl hfull => exact .inl (by simp; omega)
        | inr hname => exact .inr (hname.append new)
      | inr hmem => exact hnames t' hmem

end HdhomerunController

/-! ## The frontend of an entry -/

/-- The name of a frontend that belongs to a type. -/
def frontendLabel : TunerType → List UInt8
  | .dvbc => CString.ofString "HDHomeRun DVB-C"
  | .dvbt => CString.ofString "HDHomeRun DVB-T"
  | .atsc => CString.ofString "HDHomeRun ATSC"
  | .notSet => CString.ofString "HDHomeRun ATSC"

/-- The entry is the tuner with this name, and its frontend shows the type and, if that is
    asked for, the name. -/
def IsFrontend (dev : PlatformDevice) (name : String) (type : TunerType) (useFullName : Bool) :
    Prop :=
  ∃ hdhomerun fe, dev.drvdata = some hdhomerun ∧ hdhomerun.fe = some fe ∧
    hdhomerun.tunerData.nameStr = kernelName name ∧
    CString.chars fe.toList =
      frontendLabel type ++ if useFullName then 32 :: kernelName name else []

/-- The module picks the frontend that belongs to the type. -/
private theorem attachName_code (type : TunerType) :
    Hdhomerun.attachName type.code = frontendLabel type := by
  cases type <;> rfl

/-- A string in an array that is long enough for it. -/
private theorem chars_charArray {n : Nat} {s : List UInt8} (hne : ∀ b ∈ s, b ≠ 0)
    (hlen : s.length ≤ n) : CString.chars (Hdhomerun.charArray n s).toList = s := by
  show CString.chars (CString.strncpy s n) = s
  rw [CString.strncpy, CString.chars_eq_self hne, List.take_of_length_le hlen,
    CString.chars_append_replicate hne]

/-- The daemon ends the name itself. -/
private theorem zero_mem_name (n : Nat) (name : String) (type : TunerType) (useFullName : Bool) :
    0 ∈ (Control.registerTunerData n name type useFullName).name.toList := by
  rw [Control.registerTunerData, Vector.toList_set]
  apply List.mem_set
  rw [Vector.length_toList]
  omega

/-- The entry of a tuner's request is its frontend. -/
theorem isFrontend_entryOf (n i : Nat) (t : HdhomerunTuner) :
    IsFrontend (TunerTable.entryOf i (HdhomerunController.requestOf n t)) t.mName t.mType
      t.mUseFullName := by
  -- the tuner data that the kernel keeps is the request with the id in it
  generalize hd : (TunerTable.newHdhomerun i (HdhomerunController.requestOf n t)).tunerData = d
  have hname : d.nameStr = kernelName t.mName := by
    rw [← hd]
    exact Control.nameStr_registerTunerData n t.mName t.mType t.mUseFullName
  have hzero : 0 ∈ d.name.toList := by
    rw [← hd]
    exact zero_mem_name n t.mName t.mType t.mUseFullName
  have htype : Hdhomerun.attachName d.type = frontendLabel t.mType := by
    rw [← attachName_code, ← hd]
    rfl
  have hfull : d.useFullName = t.mUseFullName := by
    rw [← hd]
    rfl
  have hne := Hdhomerun.ne_zero_of_mem_attachName d.type
  have hlen := Hdhomerun.length_attachName_le d.type
  refine ⟨_, Hdhomerun.frontendName d, rfl, by rw [← hd]; rfl, by rw [← hname, ← hd], ?_⟩
  rw [← htype, ← hfull]
  cases hd' : d.useFullName with
  | false =>
    have hfront : Hdhomerun.frontendName d =
        Hdhomerun.charArray 128 (Hdhomerun.attachName d.type) := by
      simp [Hdhomerun.frontendName, hd']
    rw [hfront, chars_charArray hne (by omega)]
    simp
  | true =>
    have hcut : (kernelName t.mName).length ≤ 11 := List.length_take_le _ _
    rw [Hdhomerun.chars_frontendName hd', RegisterTunerData.chars_memFromName hzero]
    show (_ ++ 32 :: d.nameStr).take 127 = _
    rw [hname]
    apply List.take_of_length_le
    simp
    omega

/-! ## All starts -/

/-- Some entry has the name, as far as the kernel compares it. -/
def Named (devs : List PlatformDevice) (name : String) : Prop :=
  ∃ dev ∈ devs, ∃ hdhomerun, dev.drvdata = some hdhomerun ∧
    nameKey (kernelName name) = nameKey hdhomerun.tunerData.nameStr

/-- A request finds its name exactly when a device has it. -/
private theorem hasName_requestOf_iff {devs : List PlatformDevice} {n : Nat} {t : HdhomerunTuner} :
    TunerTable.HasName devs (HdhomerunController.requestOf n t) ↔ Named devs t.mName := by
  unfold TunerTable.HasName Named
  simp only [CString.strncmp_eq_zero_iff]
  have hname : CString.chars (HdhomerunController.requestOf n t).name.toList = kernelName t.mName :=
    Control.nameStr_registerTunerData n t.mName t.mType t.mUseFullName
  rw [hname]
  rfl

/-- A device that has a name keeps it. -/
theorem Named.append {devs : List PlatformDevice} {name : String} (h : Named devs name)
    (new : List PlatformDevice) : Named (devs ++ new) name := by
  obtain ⟨dev, hdev, hrest⟩ := h
  exact ⟨dev, List.mem_append_left new hdev, hrest⟩

namespace LoadedModule

/-- One more daemon is started, with its ini file. -/
def start (m : LoadedModule) (s : DaemonStart) : Option LoadedModule := m.step s.session

/-- The entry has been made in this start, from the ini file of it. -/
structure MadeIn (m : LoadedModule) (s : DaemonStart) (dev : PlatformDevice) (name : String) :
    Prop where
  unknown : ¬ Named m.table.platformDevice name
  frontend : ∃ type useFullName, Configured s name type useFullName ∧
    IsFrontend dev name type useFullName

/-- What a start does to the entries. -/
structure Started (m : LoadedModule) (s : DaemonStart) (m' : LoadedModule) : Prop where
  live : m'.table.Live
  kept : ∃ new, m'.table.platformDevice = m.table.platformDevice ++ new
  entry : ∀ (i : Nat) (dev : PlatformDevice), m'.table.platformDevice[i]? = some dev →
    m.table.platformDevice[i]? = some dev ∨ ∃ name, MadeIn m s dev name
  tuner : s.session.lib.findTuners s.session.discovered ≠ none →
    ∀ name type useFullName, Configured s name type useFullName →
      m'.table.numOfDevices = hdhomerunMaxTuners ∨ Named m'.table.platformDevice name

/-- A start of the daemon that goes through. -/
private theorem start_started {m : LoadedModule} {s : DaemonStart} (hlive : m.table.Live)
    (hnul : ∀ file, s.iniFile = some file → 0 ∉ file) (hok : s.session.Succeeds) :
    ∃ m', m.start s = some m' ∧ Started m s m' := by
  unfold start step HdhomerunController.new
  cases hfind : s.session.lib.findTuners s.session.discovered with
  | none =>
    -- the daemon exits before it registers a tuner
    exact ⟨_, rfl, hlive, ⟨[], (List.append_nil _).symm⟩, fun i dev hdev => .inl hdev,
      fun hne => absurd hfind hne⟩
  | some tuners =>
    have hperm : (HdhomerunController.sortTuners tuners).Perm tuners := List.mergeSort_perm _ _
    obtain ⟨c, table, hloop, hreqs, -⟩ :=
      HdhomerunController.createDvbDevices_requests (n := tuners.length) hok hlive
        fun t ht => LibHdhomerun.mKernelId_of_mem_findTuners hfind t (hperm.mem_iff.mp ht)
    have hregs : (HdhomerunController.createDvbDevices tuners.length
        (HdhomerunController.sortTuners tuners) s.session.results m.table).map _ = _ :=
      HdhomerunController.createDvbDevices_registerAll hok m.table
    rw [hloop] at hregs
    obtain ⟨hkept, hentries, hnames⟩ := HdhomerunController.registerAll_entries hregs.symm
    simp only [hloop, Option.map_some]
    refine ⟨_, rfl, hreqs.live hlive, hkept, fun i dev hdev => ?_,
      fun _ name type useFullName hconf => ?_⟩
    · cases hentries i dev hdev with
      | inl hold => exact .inl hold
      | inr hmade =>
        obtain ⟨t, ht, rfl, hnot⟩ := hmade
        rw [hasName_requestOf_iff] at hnot
        exact .inr ⟨t.mName, hnot, _, _, configured_of_mem hnul hfind (hperm.mem_iff.mp ht),
          isFrontend_entryOf _ _ _⟩
    · obtain ⟨t, ht, rfl⟩ := mem_of_configured hnul hfind hconf
      cases hnames t (hperm.mem_iff.mpr ht) with
      | inl hfull => exact .inl (Nat.le_antisymm table.bound hfull)
      | inr hname => exact .inr (hasName_requestOf_iff.mp hname)

/-- Every frontend is the one that was configured when its name was registered first, and a
    tuner is without one only when the table is full. -/
structure FirstConfigured (starts : List DaemonStart) (m : LoadedModule) : Prop where
  entry : ∀ (i : Nat) (dev : PlatformDevice), m.table.platformDevice[i]? = some dev →
    ∃ before s after m₁ name, starts = before ++ s :: after ∧
      Run.exec start loaded before = some m₁ ∧ MadeIn m₁ s dev name
  tuner : ∀ s ∈ starts, s.session.lib.findTuners s.session.discovered ≠ none →
    ∀ name type useFullName, Configured s name type useFullName →
      m.table.numOfDevices = hdhomerunMaxTuners ∨ Named m.table.platformDevice name

/-- Another start changes no frontend. -/
private theorem FirstConfigured.start {starts : List DaemonStart} {s : DaemonStart}
    {m m' : LoadedModule} (h : FirstConfigured starts m)
    (hrun : Run.exec LoadedModule.start loaded starts = some m) (hstart : Started m s m') :
    FirstConfigured (starts ++ [s]) m' := by
  obtain ⟨new, hnew⟩ := hstart.kept
  constructor
  case entry =>
    intro i dev hdev
    cases hstart.entry i dev hdev with
    | inl hold =>
      obtain ⟨before, s₁, after, m₁, name, rfl, hrun₁, hmade⟩ := h.entry i dev hold
      exact ⟨before, s₁, after ++ [s], m₁, name, by simp, hrun₁, hmade⟩
    | inr hmade =>
      obtain ⟨name, hmade⟩ := hmade
      exact ⟨starts, s, [], m, name, rfl, hrun, hmade⟩
  case tuner =>
    intro s₁ hmem hfind name type useFullName hconf
    cases List.mem_append.mp hmem with
    | inl hold =>
      rw [TunerTable.numOfDevices, hnew]
      cases h.tuner s₁ hold hfind name type useFullName hconf with
      | inl hfull =>
        -- a full table stays as it is
        left
        have hbound := m'.table.bound
        rw [hnew] at hbound
        simp only [List.length_append, TunerTable.numOfDevices] at *
        omega
      | inr hname => exact .inr (hname.append new)
    | inr hlast =>
      cases List.mem_singleton.mp hlast
      exact hstart.tuner hfind name type useFullName hconf

/-- Over any number of daemons on one loaded module, each with an ini file of its own: the
    frontend of every entry has the type and the name that were configured when a daemon
    registered its name for the first time, whatever later ini files say. -/
theorem first_configuration (starts : List DaemonStart)
    (hnul : ∀ s ∈ starts, ∀ file, s.iniFile = some file → 0 ∉ file)
    (hok : ∀ s ∈ starts, s.session.Succeeds) :
    ∃ m, Run.exec start loaded starts = some m ∧ FirstConfigured starts m := by
  suffices ∃ m, Run.exec start loaded starts = some m ∧ m.table.Live ∧ FirstConfigured starts m by
    obtain ⟨m, hrun, -, hfirst⟩ := this
    exact ⟨m, hrun, hfirst⟩
  induction starts using List.reverseRecOn with
  | nil =>
    refine ⟨loaded, rfl, TunerTable.live_loaded, fun i dev hdev => ?_, fun s hs => ?_⟩
    · cases hdev
    · exact absurd hs List.not_mem_nil
  | append_singleton starts s ih =>
    obtain ⟨m, hrun, hlive, hfirst⟩ := ih (fun s hs => hnul s (List.mem_append_left _ hs))
      fun s hs => hok s (List.mem_append_left _ hs)
    have hs : s ∈ starts ++ [s] := List.mem_append_right _ List.mem_cons_self
    obtain ⟨m', hstep, hstart⟩ := start_started hlive (hnul s hs) (hok s hs)
    refine ⟨m', ?_, hstart.live, hfirst.start hrun hstart⟩
    rw [Run.exec_append_of_some hrun, Run.exec_cons_of_some hstep, Run.exec_nil]

/-- A device with one tuner, and an ini file that gives it a type. -/
private def startWith (type : String) : DaemonStart :=
  let lib : LibHdhomerun :=
    { discoverValidateDeviceId := fun _ => true
      deviceGetName := fun _ _ _ => "12345678-0"
      deviceGetModelStr := fun _ _ _ => some "hdhomerun_dvbt"
      deviceSetTunerFilter := fun _ _ _ => 1
      conf := fun _ => ⟨none, none, none⟩ }
  .ofFile (some (CString.ofString ("[12345678-0]\ntuner_type=" ++ type ++ "\n")))
    ⟨lib, some [⟨0x12345678, 0, 1⟩], fun _ => .allSucceed⟩

/-- A daemon with DVB-T in its file, then one with DVB-C. -/
theorem first_configuration_changed :
    ∃ m, Run.exec start loaded [startWith "DVB-T", startWith "DVB-C"] = some m ∧
      FirstConfigured [startWith "DVB-T", startWith "DVB-C"] m := by
  have hdvbt : 0 ∉ CString.ofString ("[12345678-0]\ntuner_type=" ++ "DVB-T" ++ "\n") := by decide
  have hdvbc : 0 ∉ CString.ofString ("[12345678-0]\ntuner_type=" ++ "DVB-C" ++ "\n") := by decide
  apply first_configuration
  · intro s hs file hfile
    simp only [List.mem_cons, List.not_mem_nil, or_false] at hs
    cases hs with
    | inl h =>
      subst h
      cases hfile
      exact hdvbt
    | inr h =>
      subst h
      cases hfile
      exact hdvbc
  · intro s hs j
    simp only [List.mem_cons, List.not_mem_nil, or_false] at hs
    cases hs with
    | inl h => exact h ▸ KernelResults.allSucceed_succeed
    | inr h => exact h ▸ KernelResults.allSucceed_succeed

end LoadedModule

end DvbHdhomerun
