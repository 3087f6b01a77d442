import Mathlib.Tactic
import Woodland.CommandLine.Session
import Woodland.Files.FileTree
import Woodland.Proofs.CommandLine.ParameterOrder

/-!
The order of options on a command line. Options that speak of different things can change places: either both lines
are refused, or both give the same settings and the same file to write.
-/

namespace Woodland.CommandLine

abbrev Group := String × String

def arguments (gs : List Group) : List String := gs.flatMap fun g => [g.1, g.2]

def assigned? (text : String) : Option String :=
  if '=' ∈ text.toList then some (String.ofList (text.toList.takeWhile (· ≠ '='))) else none

/-- What a group speaks of: its option in any spelling, and where that is a parameter its name. -/
def Group.kind (g : Group) : Option Flag × Option String :=
  let flag := Flag.ofName? g.1
  (flag, if flag = some (.valued .param) then assigned? g.2 else none)

variable {m : Type → Type} [Monad m] [FileAccess m]

/-- The settings that arguments lead to and where these are to be written; nothing where they are refused. -/
def effective (arguments : List String) : m (Option (Settings × Option String)) :=
  match Request.ofArguments arguments with
  | .ok (.run o) => do return (← o.settings).toOption.map fun s => (s, o.writeConfig)
  | .ok .help => return none
  | .error _ => return none

inductive Entry where
  | config (path : String)
  | writeConfig (path : String)
  | seed (seed : UInt64)
  | count (n : ℕ)
  | iterations (n : ℕ)
  | param (name : String) (x : Float)

def Entry.kind : Entry → Option Flag × Option String
  | config _ => (some (.valued .config), none)
  | writeConfig _ => (some (.valued .writeConfig), none)
  | seed _ => (some (.valued .seed), none)
  | count _ => (some (.valued .count), none)
  | iterations _ => (some (.valued .iterations), none)
  | param name _ => (some (.valued .param), some name)

def Options.enter (o : Options) : Entry → Options
  | .config path => { o with config := some path }
  | .writeConfig path => { o with writeConfig := some path }
  | .seed seed => { o with seed := some seed }
  | .count n => { o with count := some n }
  | .iterations n => { o with iterations := some n }
  | .param name x => { o with params := o.params ++ [(name, x)] }

def Entry.read (k : Key) (text : String) : Except UsageFault Entry :=
  match k with
  | .config => .ok (config text)
  | .writeConfig => .ok (writeConfig text)
  | .seed =>
    match Decimal.natural? Json.wordBound text.toList with
    | some n => .ok (seed n.toUInt64)
    | none => .error (.seed text)
  | .count =>
    match Decimal.natural? Json.wordBound text.toList with
    | some n => .ok (count n)
    | none => .error (.count text)
  | .iterations =>
    match Decimal.natural? Shape.iterationBound text.toList with
    | some n => .ok (iterations n)
    | none => .error (.iterations text)
  | .param => (CommandLine.param text).map fun (name, x) => param name x

lemma give_eq (o : Options) (k : Key) (text : String) : o.give k text = (Entry.read k text).map o.enter := by
  cases k with
  | config | writeConfig => rfl
  | seed | count =>
    simp only [Options.give, Entry.read]
    cases Decimal.natural? Json.wordBound text.toList <;> rfl
  | iterations =>
    simp only [Options.give, Entry.read]
    cases Decimal.natural? Shape.iterationBound text.toList <;> rfl
  | param =>
    simp only [Options.give, Entry.read]
    cases CommandLine.param text <;> rfl

lemma ne_of_not_mem {cs : List Char} (h : '=' ∉ cs) : ∀ c ∈ cs, decide (c ≠ '=') = true :=
  fun _ hc => decide_eq_true fun he => h (he ▸ hc)

lemma assigned?_of_param {text name : String} {x : Float} (h : CommandLine.param text = .ok (name, x)) :
    assigned? text = some name := by
  rw [CommandLine.param, List.span_eq_takeWhile_dropWhile] at h
  split at h
  · cases h
  · next name' c number hs =>
    obtain ⟨rfl, hd⟩ := Prod.mk.inj hs
    have hmem : '=' ∈ text.toList := by
      by_contra hn
      rw [List.dropWhile_eq_nil_iff.mpr (ne_of_not_mem hn)] at hd
      cases hd
    split at h
    · obtain ⟨rfl, -⟩ := Prod.mk.inj (Except.ok.inj h)
      exact if_pos hmem
    · cases h

lemma kind_of_read {g : Group} {k : Key} {e : Entry} (hk : Flag.ofName? g.1 = some (.valued k))
    (h : Entry.read k g.2 = .ok e) : e.kind = g.kind := by
  rw [Group.kind, hk]
  cases k with
  | config | writeConfig =>
    obtain rfl := Except.ok.inj h
    rfl
  | seed | count | iterations =>
    simp only [Entry.read] at h
    split at h
    · obtain rfl := Except.ok.inj h
      rfl
    · cases h
  | param =>
    obtain ⟨⟨name, x⟩, hp, rfl⟩ := map_ok_iff.mp h
    simp only [Entry.kind, if_true, assigned?_of_param hp]

def Says (g : Group) (e : Entry) : Prop := ∃ k, Flag.ofName? g.1 = some (.valued k) ∧ Entry.read k g.2 = .ok e

lemma kind_of_says (g : Group) (e : Entry) (h : Says g e) : e.kind = g.kind := by
  obtain ⟨k, hk, he⟩ := h
  exact kind_of_read hk he

def Valued (gs : List Group) : Prop := ∀ g ∈ gs, ∃ k, Flag.ofName? g.1 = some (.valued k)

lemma read_ok_iff {gs : List Group} (hg : Valued gs) {o : Options} {r : Request} :
    o.read (arguments gs) = .ok r ↔ ∃ es, List.Forall₂ Says gs es ∧ r = .run (es.foldl Options.enter o) := by
  induction gs generalizing o with
  | nil =>
    rw [show arguments [] = [] from rfl, Options.read]
    simp [eq_comm]
  | cons g gs ih =>
    obtain ⟨⟨k, hk⟩, hg⟩ := List.forall_mem_cons.mp hg
    have ha : arguments (g :: gs) = g.1 :: g.2 :: arguments gs := rfl
    rw [ha, Options.read, hk]
    change (o.give k g.2).bind (fun o => o.read (arguments gs)) = .ok r ↔ _
    simp only [bind_ok_iff, give_eq, map_ok_iff, ih hg]
    constructor
    · rintro ⟨_, ⟨e, he, rfl⟩, es, hs, rfl⟩
      exact ⟨e :: es, .cons ⟨k, hk, he⟩ hs, rfl⟩
    · rintro ⟨_, hs, rfl⟩
      obtain ⟨e, es, ⟨k', hk', he⟩, hs', rfl⟩ := List.forall₂_cons_left_iff.mp hs
      obtain rfl : k = k' := by simpa [hk] using hk'
      exact ⟨_, ⟨e, he, rfl⟩, es, hs', rfl⟩

structure Options.Alike (o o' : Options) : Prop where
  config : o.config = o'.config
  writeConfig : o.writeConfig = o'.writeConfig
  seed : o.seed = o'.seed
  count : o.count = o'.count
  iterations : o.iterations = o'.iterations
  params : Exchange Prod.fst o.params o'.params

namespace Options.Alike

variable {o o' o'' : Options}

lemma refl (o : Options) : o.Alike o := ⟨rfl, rfl, rfl, rfl, rfl, .refl o.params⟩

lemma symm (h : o.Alike o') : o'.Alike o :=
  ⟨h.config.symm, h.writeConfig.symm, h.seed.symm, h.count.symm, h.iterations.symm, h.params.symm⟩

lemma trans (h : o.Alike o') (h' : o'.Alike o'') : o.Alike o'' :=
  ⟨h.config.trans h'.config, h.writeConfig.trans h'.writeConfig, h.seed.trans h'.seed, h.count.trans h'.count,
    h.iterations.trans h'.iterations, h.params.trans h'.params⟩

lemma enter (h : o.Alike o') (e : Entry) : (o.enter e).Alike (o'.enter e) := by
  obtain ⟨h₁, h₂, h₃, h₄, h₅, h₆⟩ := h
  cases e with
  | config path => exact ⟨rfl, h₂, h₃, h₄, h₅, h₆⟩
  | writeConfig path => exact ⟨h₁, rfl, h₃, h₄, h₅, h₆⟩
  | seed seed => exact ⟨h₁, h₂, rfl, h₄, h₅, h₆⟩
  | count n => exact ⟨h₁, h₂, h₃, rfl, h₅, h₆⟩
  | iterations n => exact ⟨h₁, h₂, h₃, h₄, rfl, h₆⟩
  | param name x => exact ⟨h₁, h₂, h₃, h₄, h₅, h₆.append_right [(name, x)]⟩

lemma foldl_enter (h : o.Alike o') (es : List Entry) :
    (es.foldl Options.enter o).Alike (es.foldl Options.enter o') := by
  induction es generalizing o o' with
  | nil => exact h
  | cons e es ih => exact ih (h.enter e)

lemma enter_swap (o : Options) {d e : Entry} (h : d.kind ≠ e.kind) :
    ((o.enter d).enter e).Alike ((o.enter e).enter d) := by
  cases d <;> cases e
  case param.param name x name' x' =>
    have hn : name ≠ name' := by
      rintro rfl
      exact h rfl
    refine ⟨rfl, rfl, rfl, rfl, rfl, ?_⟩
    rw [Options.enter, Options.enter, Options.enter, Options.enter, List.append_assoc, List.append_assoc]
    exact .swap o.params [] hn
  all_goals first | exact absurd rfl h | exact refl _

lemma of_exchange {es es' : List Entry} (h : Exchange Entry.kind es es') (o : Options) :
    (es.foldl Options.enter o).Alike (es'.foldl Options.enter o) := by
  induction h with
  | refl es => exact refl _
  | swap l m hk =>
    rw [List.foldl_append, List.foldl_append]
    exact (enter_swap _ hk).foldl_enter m
  | trans _ _ ih ih' => exact ih.trans ih'

end Options.Alike

namespace Options

variable {o o' : Options} {s r : Settings}

def start (o : Options) (s : Settings) : Settings :=
  { s with seed := o.seed.getD s.seed, targetCount := o.count.getD s.targetCount }

def iterate (o : Options) (s : Settings) : Except Error Settings :=
  match o.iterations with
  | some n => s.set Shape.Parameter.iterations.name (Binary.doubleOfNat n)
  | none => .ok s

lemma overlay_eq (o : Options) (s : Settings) : o.overlay s =
    (o.iterate (o.start s)).bind fun t =>
      (o.params.foldlM (fun (s : Settings) a => s.set a.1 a.2) t).bind fun r => r.validate.bind fun _ => .ok r := by
  rw [overlay, iterate, start]
  cases o.iterations <;> rfl

lemma overlay_ok_iff : o.overlay s = .ok r ↔
    ∃ t, o.iterate (o.start s) = .ok t ∧ o.params.foldlM (fun s a => s.set a.1 a.2) t = .ok r ∧
      r.validate = .ok () := by
  simp only [overlay_eq, bind_ok_iff, Except.ok.injEq]
  constructor
  · rintro ⟨t, ht, _, hr, _, hv, rfl⟩
    exact ⟨t, ht, hr, hv⟩
  · rintro ⟨t, ht, hr, hv⟩
    exact ⟨t, ht, r, hr, (), hv, rfl⟩

lemma validate_iterate {t : Settings} (h : s.shape.validate = .ok ()) (ht : o.iterate s = .ok t) :
    t.shape.validate = .ok () := by
  rw [iterate] at ht
  cases hi : o.iterations with
  | none =>
    rw [hi] at ht
    exact Except.ok.inj ht ▸ h
  | some n =>
    rw [hi] at ht
    exact Settings.validate_shape_set h ht

end Options

namespace Options.Alike

variable {o o' : Options} {s r : Settings}

lemma overlay_ok (h : o.Alike o') (hs : s.shape.validate = .ok ()) (hr : o.overlay s = .ok r) :
    o'.overlay s = .ok r := by
  obtain ⟨t, ht, hp, hv⟩ := overlay_ok_iff.mp hr
  have hts : t.shape.validate = .ok () := validate_iterate (s := o.start s) hs ht
  have he : o'.iterate (o'.start s) = .ok t := by
    rw [← ht, iterate, iterate, start, start, h.iterations, h.seed, h.count]
  exact overlay_ok_iff.mpr ⟨t, he, Settings.foldlM_set_ok h.params hts hp, hv⟩

lemma toOption_overlay (h : o.Alike o') (hs : s.shape.validate = .ok ()) :
    (o.overlay s).toOption = (o'.overlay s).toOption := by
  cases ho : o.overlay s with
  | ok r => rw [h.overlay_ok hs ho]
  | error e =>
    cases ho' : o'.overlay s with
    | ok r => rw [h.symm.overlay_ok hs ho'] at ho; cases ho
    | error e' => rfl

end Options.Alike

lemma validate_of_ofText {text : String} {s : Settings} (h : Settings.ofText text = .ok s) : s.validate = .ok () := by
  rw [Settings.ofText] at h
  cases ht : (Json.read? text).bind Settings.ofJson? with
  | none =>
    rw [ht] at h
    cases h
  | some t =>
    rw [ht] at h
    obtain ⟨_, hv, hs⟩ := bind_ok_iff.mp h
    exact Except.ok.inj hs ▸ hv

variable [LawfulMonad m] {o o' : Options}

lemma Options.Alike.bind_load (h : o.Alike o') (path : String) :
    (do return ((← Settings.load path).bind o.overlay).toOption : m (Option Settings)) =
      do return ((← Settings.load path).bind o'.overlay).toOption := by
  simp only [Settings.load, bind_assoc]
  congr 1
  funext answer
  cases answer with
  | error fault =>
    simp only [pure_bind]
    rfl
  | ok text =>
    simp only [pure_bind]
    cases ht : Settings.ofText text with
    | error e => rfl
    | ok s => exact congrArg pure (h.toOption_overlay (Settings.validate_shape_of_valid (validate_of_ofText ht)))

lemma Options.Alike.toOption_settings (h : o.Alike o') :
    (do return (← o.settings).toOption : m (Option Settings)) = do return (← o'.settings).toOption := by
  simp only [Options.settings, h.config]
  cases o'.config with
  | none =>
    simp only [pure_bind]
    exact congrArg pure (h.toOption_overlay rfl)
  | some path =>
    simp only [bind_assoc, pure_bind]
    exact h.bind_load path

lemma effective_of_alike {as as' : List String} (ha : Request.ofArguments as = .ok (.run o))
    (ha' : Request.ofArguments as' = .ok (.run o')) (h : o.Alike o') : effective (m := m) as = effective as' := by
  have hs := congrArg (fun x => do return (← x).map fun s => (s, o'.writeConfig)) (h.toOption_settings (m := m))
  simp only [bind_assoc, pure_bind] at hs
  simp only [effective, ha, ha', h.writeConfig]
  exact hs

lemma ofArguments_of_exchange {gs gs' : List Group} (hg : Valued gs) (hg' : Valued gs')
    (h : Exchange Group.kind gs gs') {r : Request} (hr : Request.ofArguments (arguments gs) = .ok r) :
    ∃ o o', r = .run o ∧ Request.ofArguments (arguments gs') = .ok (.run o') ∧ o.Alike o' := by
  obtain ⟨es, hes, rfl⟩ := (read_ok_iff hg).mp hr
  obtain ⟨es', hes', hx⟩ := h.forall₂ kind_of_says hes
  exact ⟨_, _, rfl, (read_ok_iff hg').mpr ⟨es', hes', rfl⟩, .of_exchange hx {}⟩

theorem effective_of_reordered (gs gs' : List Group) (hg : Valued gs)
    (h : ∀ k, gs.filter (·.kind = k) = gs'.filter (·.kind = k)) :
    effective (m := m) (arguments gs) = effective (arguments gs') := by
  have hx : Exchange Group.kind gs gs' := .of_filter_eq h
  have hg' : Valued gs' := fun g hm => hg g (hx.perm.mem_iff.mpr hm)
  cases hr : Request.ofArguments (arguments gs) with
  | ok r =>
    obtain ⟨o, o', rfl, hr', ho⟩ := ofArguments_of_exchange hg hg' hx hr
    exact effective_of_alike hr hr' ho
  | error fault =>
    cases hr' : Request.ofArguments (arguments gs') with
    | ok r' =>
      obtain ⟨_, _, -, ho, -⟩ := ofArguments_of_exchange hg' hg hx.symm hr'
      rw [ho] at hr
      cases hr
    | error fault' => simp only [effective, hr, hr']

theorem effective_of_reordered_file :
    let t := FileTree.empty.insert [] "a.json" (.file "\x7b\"seed\": 7\x7d".toUTF8)
    let gs : List Group := [("-n", "12"), ("-p", "taper=0.5"), ("-c", "a.json"), ("--param", "taper=0.25")]
    let gs' : List Group := [("-c", "a.json"), ("-n", "12"), ("-p", "taper=0.5"), ("--param", "taper=0.25")]
    Valued gs ∧ (∀ k, gs.filter (·.kind = k) = gs'.filter (·.kind = k)) ∧
      effective (m := StateM FileTree) (arguments gs) = effective (arguments gs') ∧
      (StateT.run (effective (m := StateM FileTree) (arguments gs)) t).1 =
        some (⟨7, 12, 80.0, 10.0, 5.0, { (default : Shape Float32) with taper := 0.25 }⟩, none) := by
  intro t gs gs'
  have hg : Valued gs := by
    simp only [Valued, gs, List.forall_mem_cons]
    exact ⟨⟨.count, rfl⟩, ⟨.param, rfl⟩, ⟨.config, rfl⟩, ⟨.param, rfl⟩, List.forall_mem_nil _⟩
  have hx : Exchange Group.kind gs gs' := .to_front (l := [("-n", "12"), ("-p", "taper=0.5")]) (by decide)
  exact ⟨hg, hx.filter_eq, effective_of_reordered gs gs' hg hx.filter_eq, by decide +kernel⟩

end Woodland.CommandLine
