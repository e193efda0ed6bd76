import HostScript.Proofs.Machine.Stack
import HostScript.Proofs.Dispatch.Throughout

/-!
# Proofs/Machine/Sound — machines stay in sound states

Each step of a machine keeps its store sound and leads from place to place as the stack says: into a
loop and out of it, into a function that is called and back.  What a host requests keeps stores sound
as well, so that every state of every session is sound; this is the invariant `Invariant.sound`.
-/

namespace HostScript

namespace Store

variable {s t : Store}

/-! ## What leaves activations and functions as they are -/

theorem sameCode_beginLoad (s : Store) (rt : RuntimeId) (name : String) :
    SameCode s (s.beginLoad rt name).2 := ⟨rfl, rfl⟩

theorem sameCode_undoLoad (s : Store) (load : Load) : SameCode s (s.undoLoad load) := by
  unfold undoLoad
  split <;> exact ⟨rfl, rfl⟩

theorem sameCode_of_dispatch {registry : Registry} {rt : RuntimeId} {module : NamespaceId}
    {signature : Signature} {args : List Value} {outcome : Outcome}
    (done : s.dispatch registry rt module signature args = (outcome, t)) : SameCode s t := by
  obtain rfl := congrArg Prod.snd done
  exact ⟨s.frames_dispatch registry module signature args rt,
    s.functions_dispatch registry module signature args rt⟩

theorem sameCode_onHeap {α : Type} {f : Heap → α × Heap} {result : α}
    (h : s.onHeap f = (result, t)) : SameCode s t := by
  obtain rfl := congrArg Prod.snd h
  exact ⟨rfl, rfl⟩

theorem sameCode_publish (s : Store) (rt : RuntimeId) (info : TypeInfo) :
    SameCode s (s.publish rt info) := by
  unfold publish
  dsimp only
  split
  next found => exact ⟨(sameCode_onHeap found).frames, (sameCode_onHeap found).functions⟩
  next found => exact ⟨(sameCode_onHeap found).frames, (sameCode_onHeap found).functions⟩

theorem sameCode_foldl {α : Type} {f : Store → α → Store} (same : ∀ s x, SameCode s (f s x))
    (s : Store) (xs : List α) : SameCode s (xs.foldl f s) := by
  induction xs generalizing s with
  | nil => exact .refl s
  | cons x rest ih => exact (same s x).trans (ih (f s x))

theorem sameCode_inject (s : Store) (registry : Registry) (rt : RuntimeId) (object : HostObject) :
    SameCode s (s.inject registry rt object) := by
  unfold inject
  dsimp only
  split
  next space t found =>
    have bound := sameCode_foldl (f := fun s (m : Method) => s.bind space m.name (.object object))
      (fun _ _ => ⟨rfl, rfl⟩) t (registry.type object.type).methods
    have same := (sameCode_onHeap found).trans bound
    exact ⟨same.frames, same.functions⟩
  next found => exact ⟨(sameCode_onHeap found).frames, (sameCode_onHeap found).functions⟩

theorem sameCode_buildRuntime (s : Store) (registry : Registry) (libraries : List (List TypeInfo))
    (instances : List HostObject) (extension : String) :
    SameCode s (s.buildRuntime registry libraries instances extension).2 := by
  unfold buildRuntime
  dsimp only
  have made (runtime : Runtime) : SameCode s (s.newSpace.2.newRuntime runtime).2 := ⟨rfl, rfl⟩
  have publishes (rt : RuntimeId) (t : Store) :=
    sameCode_foldl (fun s info => s.sameCode_publish rt info) t libraries.flatten
  have injects (rt : RuntimeId) (t : Store) :=
    sameCode_foldl (fun s object => s.sameCode_inject registry rt object) t instances
  exact ((made _).trans (publishes _ _)).trans (injects _ _)

/-! ## Programs that start -/

/-- Preparing a program leaves activations and functions as they are, and makes it for the place of
the activation that comes next. -/
theorem prepare_eq {rt : RuntimeId} {source : String} {result : Except ScriptError Program}
    (h : s.prepare rt source = (result, t)) :
    SameCode s t ∧ ∀ program, result = .ok program → program.Sound s.frames.size := by
  constructor
  · obtain rfl | ⟨requests, rfl⟩ := store_of_prepare h
    · exact .refl t
    · exact ⟨rfl, rfl⟩
  · rintro program rfl
    obtain ⟨tree, -, compiled⟩ := compiled_of_prepare h
    exact sound_compile compiled

/-- **A program that is about to run** in an activation of its module. -/
structure Starts (s : Store) (control : Control) (a : Activation) : Prop where
  store : s.Sound
  within : a.Sound s
  module : a.IsModule s
  control : control = .eval a.env a.template.body

/-- Starting a program that was made for the next activation. -/
theorem Sound.startProgram (h : s.Sound) {program : Program} (made : program.Sound s.frames.size)
    (rt : RuntimeId) (module : NamespaceId) :
    s.Extends (s.startProgram rt module program).2 ∧
      (s.startProgram rt module program).2.Starts (s.startProgram rt module program).1
        ⟨⟨⟨s.frames.size⟩, module, rt⟩, program.template⟩ := by
  have kept : (s.newFrame program.layout [] none).2.Sound :=
    h.newFrame [] (fun _ => made.owner) nofun
  have found : (s.newFrame program.layout [] none).2.frames[s.frames.size]? =
      some ⟨program.layout, _, none⟩ := Array.getElem?_push_size
  have within : Activation.Sound (s.newFrame program.layout [] none).2
      ⟨⟨⟨s.frames.size⟩, module, rt⟩, program.template⟩ := ⟨[], .last found rfl, made.fits⟩
  exact ⟨.newFrame s program.layout [] none, kept, within, ⟨program, _, rfl, made, found, rfl, rfl⟩, rfl⟩

/-- Starting a file. -/
theorem Sound.startFile (h : s.Sound) {files : Files} {rt : RuntimeId} {module : NamespaceId}
    {path : String} {result : Except ScriptError Control}
    (started : s.startFile files rt module path = (result, t)) :
    s.Extends t ∧ t.Sound ∧ ∀ control, result = .ok control → ∃ a, t.Starts control a := by
  have told (full : String) : SameCode s (s.bind module "__file__" (.text full)) := ⟨rfl, rfl⟩
  cases fileStarts_of_eq started with
  | unreadable => exact ⟨.refl s, h, nofun⟩
  | refused _ prepared =>
    have before := (told _).trans (prepare_eq prepared).1
    exact ⟨before.extends, h.of_same before, nofun⟩
  | starts _ prepared =>
    obtain ⟨same, made⟩ := prepare_eq prepared
    have before := (told _).trans same
    have fresh := made _ rfl
    rw [← same.frames] at fresh
    obtain ⟨further, starts⟩ := (h.of_same before).startProgram fresh rt module
    refine ⟨before.extends.trans further, starts.store, ?_⟩
    rintro _ ⟨⟩
    exact ⟨_, starts⟩

end Store

/-! ## Steps -/

namespace Machine

variable {setting : Setting} {a : Activation} {place : Standpoint} {l : Option (Label × Code)}
  {stack : List Pending} {s t : Store}

/-- A place that a machine is in, with any value. -/
theorem sound_value (h : s.Sound) (within : place.Sound s) (waits : Waits s place stack) (v : Value) :
    Config.Sound ⟨.value v, stack, s⟩ := ⟨place, h, within, trivial, waits⟩

theorem sound_fail (h : s.Sound) (within : place.Sound s) (waits : Waits s place stack)
    (e : EvalError) : Config.Sound ⟨.exit (.fail e), stack, s⟩ := ⟨place, h, within, trivial, waits⟩

/-- Code that stands in the body of an activation may be evaluated there. -/
theorem sound_go (h : s.Sound) (within : a.Sound s) {code : Code}
    (stands : a.template.body.Stands l code) (waits : Waits s (.inside a l) stack) :
    Config.Sound ⟨.eval a.env code, stack, s⟩ :=
  ⟨.inside a l, h, within, ⟨a, l, rfl, rfl, stands⟩, waits⟩

theorem sound_reply (h : s.Sound) (within : place.Sound s) (waits : Waits s place stack)
    (reply : Reply) : Config.Sound ⟨.ofReply reply, stack, s⟩ := by
  cases reply with
  | value v => exact sound_value h within waits v
  | fail cause => exact sound_fail h within waits _
  | call f args => exact ⟨place, h, within, trivial, waits⟩

/-- A program that starts, above what waits for it. -/
theorem sound_starts {control : Control} (starts : s.Starts control a)
    (waits : Waits s (.inside a none) stack) : Config.Sound ⟨control, stack, s⟩ := by
  rw [starts.control]
  exact sound_go starts.store starts.within .whole waits

theorem sound_importPath (h : s.Sound) (within : place.Sound s) (waits : Waits s place stack)
    (env : Env) (path : List String) : (importPath setting env path stack s).Sound := by
  have before := s.sameCode_beginLoad env.runtime
  match importPath setting env path stack s, importsTo setting env path stack s with
  | _, .bound _ => exact sound_value h within waits _
  | _, .missing _ _ => exact sound_fail h within waits _
  | _, .starts file =>
    obtain ⟨further, kept, starts⟩ := (h.of_same (before _)).startFile file.started
    obtain ⟨a, starts⟩ := starts _ rfl
    have after := (before _).extends.trans further
    exact sound_starts starts (.load ⟨rfl, starts.module⟩ (within.extend after) (waits.extend after))
  | _, .refused file =>
    obtain ⟨further, kept, -⟩ := (h.of_same (before _)).startFile file.started
    have after := (before _).extends.trans further
    exact sound_fail kept (Standpoint.sound_host _)
      (.load trivial (within.extend after) (waits.extend after)) _

/-- **Evaluating code that stands in the body of an activation.** -/
theorem sound_eval (h : s.Sound) (within : a.Sound s) {code : Code}
    (stands : a.template.body.Stands l code) (waits : Waits s (.inside a l) stack) :
    (eval setting a.env code stack s).Sound := by
  have here : Standpoint.Sound s (.inside a l) := within
  obtain ⟨chain, linked, fits⟩ := within.fits stands
  cases code with
  | write slot value => exact sound_go h within stands.write (.write stands waits)
  | dispatch position signature operands =>
    cases operands with
    | nil => exact ⟨.inside a l, h, here, trivial, .locate waits⟩
    | cons first rest =>
      refine sound_go h within (stands.operand List.mem_cons_self) (.operands ?_ waits)
      exact fun code mem => stands.operand (List.mem_cons_of_mem _ mem)
  | closure template =>
    have made : s.Made (.script template a.env.frame a.env.module a.env.runtime) :=
      ⟨chain, linked, fits.closure_of none none⟩
    have further := Store.Extends.newFunction s
      (.script template a.env.frame a.env.module a.env.runtime)
    exact sound_value (h.newFunction made) (here.extend further) (waits.extend further) _
  | choose branches otherwise =>
    cases branches with
    | nil => exact sound_go h within stands.otherwise waits
    | cons first rest => exact sound_go h within (stands.test List.mem_cons_self) (.test stands waits)
  | loop label body => exact sound_go h within stands.loop (.loop stands waits)
  | leave label value =>
    cases fits with
    | leave around _ =>
      obtain ⟨⟨_, inner⟩, rfl, rfl⟩ := Option.map_eq_some_iff.1 around
      exact sound_go h within stands.leave (.leave stands waits)
  | give label value =>
    cases fits with
    | give around _ => exact sound_go h within stands.give (.give stands around waits)
  | sequence codes =>
    cases codes with
    | nil => exact sound_value h here waits _
    | cons first rest =>
      refine sound_go h within (stands.sequence List.mem_cons_self) (.sequence ?_ waits)
      exact fun code mem => stands.sequence (List.mem_cons_of_mem _ mem)
  | importAs => exact sound_importPath h here (.locate (.bind waits)) _ _
  | null | constant | thisModule | read => exact sound_value h here waits _

/-- **Handing a value to what waits for it.** -/
theorem sound_resume (h : s.Sound) (within : place.Sound s) {waiting : Pending}
    (waits : Waits s place (waiting :: stack)) (v : Value) :
    (resume v waiting stack s).Sound := by
  cases waits with
  | load _ outer waits => exact sound_value h outer waits _
  | call _ outer waits => exact sound_value h outer waits _
  | @bind _ module name _ waits =>
    have same : Store.SameCode s (s.bind module name v) := ⟨rfl, rfl⟩
    exact sound_value (h.of_same same) (within.extend same.extends) (waits.extend same.extends) _
  | locate waits => exact sound_value h within waits _
  | @operands a l position signature done todo _ stands waits =>
    cases todo with
    | nil => exact ⟨.inside a l, h, within, trivial, .locate waits⟩
    | cons next todo =>
      refine sound_go h within (stands next List.mem_cons_self) (.operands ?_ waits)
      exact fun code mem => stands code (List.mem_cons_of_mem _ mem)
  | @write a l slot value _ stands waits =>
    have further := Store.Extends.writeSlot s a.env.frame slot v
    exact sound_value (h.writeSlot _ slot v) (within.extend further) (waits.extend further) _
  | test stands waits =>
    rw [resume_test]
    split
    · exact sound_go h within (stands.branch List.mem_cons_self) waits
    · exact sound_go h within stands.rest waits
  | @sequence a l rest _ stands waits =>
    cases rest with
    | nil => exact sound_value h within waits _
    | cons next rest =>
      refine sound_go h within (stands next List.mem_cons_self) (.sequence ?_ waits)
      exact fun code mem => stands code (List.mem_cons_of_mem _ mem)
  | loop stands waits => exact sound_go h within stands.loop (.loop stands waits)
  | @leave a label inner value _ stands waits =>
    exact ⟨.inside a (some (label, inner)), h, within, ⟨a, inner, rfl⟩, waits⟩
  | @give a l label value _ stands own waits =>
    exact ⟨.inside a l, h, within, ⟨a, l, rfl, own⟩, waits⟩

/-- **Taking pending work off the stack**: an exit is caught by the loop or the call that it is meant
for, and a failure by none. -/
theorem sound_unwind (h : s.Sound) (within : place.Sound s) {waiting : Pending}
    (waits : Waits s place (waiting :: stack)) {e : Exit} (allowed : place.Allows (.exit e)) :
    (unwind e waiting stack s).Sound := by
  cases waits with
  | @load _ outer load _ alone around waits =>
    have same := s.sameCode_undoLoad load
    exact sound_fail (h.of_same same) (around.extend same.extends) (waits.extend same.extends) _
  | call called around waits =>
    cases e with
    | fail e => exact sound_fail h around waits _
    | leave label v =>
      obtain ⟨_, _, same⟩ := allowed
      cases same
    | give label v =>
      obtain ⟨_, _, same, own⟩ := allowed
      cases same
      unfold unwind
      dsimp only
      rw [if_pos own]
      exact sound_value h around waits v
  | locate waits =>
    cases e with
    | fail e => exact sound_fail h within waits _
    | leave label v => exact ⟨place, h, within, allowed, waits⟩
    | give label v => exact ⟨place, h, within, allowed, waits⟩
  | @loop a l label inner _ stands waits =>
    have outside : Standpoint.Sound s (.inside a l) := within
    cases e with
    | fail e => exact sound_fail h outside waits _
    | leave label v =>
      obtain ⟨_, _, same⟩ := allowed
      cases same
      unfold unwind
      dsimp only
      rw [if_pos rfl]
      exact sound_value h outside waits v
    | give label v =>
      obtain ⟨_, _, same, own⟩ := allowed
      cases same
      exact ⟨.inside a l, h, outside, ⟨a, l, rfl, own⟩, waits⟩
  | bind waits => exact ⟨place, h, within, allowed, waits⟩
  | operands _ waits => exact ⟨_, h, within, allowed, waits⟩
  | write _ waits => exact ⟨_, h, within, allowed, waits⟩
  | test _ waits => exact ⟨_, h, within, allowed, waits⟩
  | sequence _ waits => exact ⟨_, h, within, allowed, waits⟩
  | leave _ waits => exact ⟨_, h, within, allowed, waits⟩
  | give _ _ waits => exact ⟨_, h, within, allowed, waits⟩

/-- **Entering a function** made by a script leads into an activation of it. -/
theorem sound_enter (h : s.Sound) (within : place.Sound s) (waits : Waits s place stack)
    (function : FunctionInfo) (args : List Value) :
    (enter setting function args stack s).Sound := by
  match enter setting function args stack s, entersTo setting function args stack s with
  | _, .native native _ _ =>
    have same : Store.SameCode s (s.onHeap (native args)).2 := ⟨rfl, rfl⟩
    exact sound_reply (h.of_same same) (within.extend same.extends) (waits.extend same.extends) _
  | _, .noNative .. | _, .noFunction .. => exact sound_value h within waits _
  | _, .dropped .. => exact sound_fail h within waits _
  | _, .script template frame module rt is_script _ =>
    obtain ⟨chain, linked, fits⟩ := h.functions _ _ is_script
    cases fits with
    | closure named same body =>
      let a : Activation := ⟨⟨⟨s.frames.size⟩, module, rt⟩, template⟩
      have further := Store.Extends.newFrame s template.layout args (some frame)
      have found : (s.newFrame template.layout args (some frame)).2.frames[s.frames.size]? =
          some ⟨template.layout, _, some frame⟩ := Array.getElem?_push_size
      have kept : (s.newFrame template.layout args (some frame)).2.Sound := by
        refine h.newFrame args nofun ?_
        rintro outer ⟨⟩
        obtain ⟨layout, rest, rfl⟩ := linked.ne_nil
        obtain ⟨around, there, rfl⟩ := linked.head
        exact ⟨named, around, there, same _ List.mem_cons_self⟩
      have inside : a.Sound (s.newFrame template.layout args (some frame)).2 :=
        ⟨chain, .inner found rfl (linked.extend further), body⟩
      have called : a.IsCall (s.newFrame template.layout args (some frame)).2 :=
        ⟨function.id, frame, _, is_script, found, rfl, rfl⟩
      exact sound_go kept inside .whole
        (.call called (within.extend further) (waits.extend further))

/-- **A step leads from a sound state to a sound state.** -/
theorem sound_step {c : Config} (sound : c.Sound) : (step setting c).Sound := by
  obtain ⟨place, h, within, allowed, waits⟩ := sound
  match c, step setting c, stepsTo setting c with
  | _, _, .evaluates =>
    obtain ⟨a, l, rfl, rfl, stands⟩ := allowed
    exact sound_eval h within stands waits
  | _, _, .replies done =>
    have same := Store.sameCode_of_dispatch done
    exact sound_reply (h.of_same same) (within.extend same.extends) (waits.extend same.extends) _
  | _, _, .handsOver done =>
    have same := Store.sameCode_of_dispatch done
    exact ⟨place, h.of_same same, within.extend same.extends, trivial, waits.extend same.extends⟩
  | _, _, .enters => exact sound_enter h within waits _ _
  | _, _, .resumes => exact sound_resume h within waits _
  | _, _, .unwinds => exact sound_unwind h within waits allowed
  | _, _, .rests _ => exact ⟨place, h, within, allowed, waits⟩

end Machine

/-! ## Requests -/

/-- Whether what a request begins with is sound: the store that it leaves, or the machine that runs
for it. -/
def Begun.Sound : Begun → Prop
  | done _ s => s.Sound
  | running c => c.Sound

theorem Request.sound_begin (setting : Setting) {s : Store} (h : s.Sound) (request : Request) :
    (request.begin setting s).Sound := by
  have before := s.sameCode_beginLoad
  match request, request.begin setting s, request.beginsAs setting s with
  | _, _, .build => exact h.of_same (s.sameCode_buildRuntime setting.registry _ _ _)
  | _, _, .drop | _, _, .change => exact h.of_same ⟨rfl, rfl⟩
  | _, _, .offer => exact h.newFunction trivial
  | _, _, .source prepared =>
    obtain ⟨same, made⟩ := Store.prepare_eq prepared
    have fresh := made _ rfl
    rw [← same.frames] at fresh
    obtain ⟨-, starts⟩ := (h.of_same same).startProgram fresh _ _
    exact Machine.sound_starts starts (.bottom ⟨rfl, starts.module⟩)
  | _, _, .noSource prepared => exact h.of_same (Store.prepare_eq prepared).1
  | _, _, .fileIn started =>
    obtain ⟨-, -, starts⟩ := h.startFile started
    obtain ⟨a, starts⟩ := starts _ rfl
    exact Machine.sound_starts starts (.bottom ⟨rfl, starts.module⟩)
  | _, _, .noFileIn started => exact (h.startFile started).2.1
  | _, _, .fileAs started =>
    obtain ⟨-, -, starts⟩ := (h.of_same (before _ _)).startFile started
    obtain ⟨a, starts⟩ := starts _ rfl
    exact Machine.sound_starts starts
      (.load ⟨rfl, starts.module⟩ (Standpoint.sound_host _) (.bottom trivial))
  | _, _, .noFileAs started =>
    obtain ⟨-, kept, -⟩ := (h.of_same (before _ _)).startFile started
    exact kept.of_same (Store.sameCode_undoLoad _ _)
  | _, _, .call => exact ⟨.host, h, Standpoint.sound_host s, trivial, .bottom trivial⟩
  | _, _, .effect (e := e) =>
    have same : Store.SameCode s (s.onHeap e).2 := ⟨rfl, rfl⟩
    exact Machine.sound_reply (h.of_same same) (Standpoint.sound_host _) (.bottom trivial) _

/-- **States are sound throughout sessions.** -/
theorem Invariant.sound (registry : Registry) : Invariant registry Store.Sound fun _ c => c.Sound where
  start := Store.sound_empty
  begun setting s request := by
    intro _ h
    have kept := request.sound_begin setting h
    cases found : request.begin setting s with
    | done answer after =>
      rw [found] at kept
      exact kept
    | running c =>
      rw [found] at kept
      exact kept
  step setting c _ h := Machine.sound_step h
  finish _ c _ h _ := by
    obtain ⟨place, sound⟩ := h
    exact sound.store

end HostScript
