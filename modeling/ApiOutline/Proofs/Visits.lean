import ApiOutline.Proofs.Build
import ApiOutline.Swagger.Kits
import Mathlib.Data.List.Nodup

/-!
The visits of a cache.

Whatever needs a kit visits the cache for it: the responses of an endpoint, the missing handlers of
a group, each undeclared response of a document.  The reader behind the cache may say something else
each time.  A cache knows exactly the kits that its visits have found, so the first visit that finds
a kit settles what every later one finds, and the reader is not asked again.
-/

namespace ApiOutline.Kit

/-- The kit at a path by what a reader says of it: one that is not found is empty. -/
def Reader.kit (reader : Reader) (asked : Nat) (path : String) : Except Fault Kit :=
  match reader asked path with
  | .ok text => .ok (Kit.ofText text)
  | .error .notFound => .ok {}
  | .error cause => .error (.read path cause)

/-- One request to a cache: what was asked for, what came of it, and the cache around it. -/
structure Visit where
  path : String
  before : Cache
  outcome : Except Fault Kit
  after : Cache

namespace Visit

/-- What tells the path of a visit from other paths. -/
def key (v : Visit) : Path.Components := Path.components v.path

def failed (v : Visit) : Bool := !v.outcome.isOk

/-- Whether the visit reads a kit: the cache does not know it, and the reader can be understood. -/
def learns (v : Visit) : Bool := (v.before.find? v.path).isNone && v.outcome.isOk

end Visit

namespace Cache

variable {reader : Reader} {path : String} {c : Cache} {kit : Kit}

/-! ## One visit -/

/-- A kit that is known is not read again. -/
theorem get_known (known : c.find? path = some kit) (reader : Reader) :
    c.get reader path = (.ok kit, c) := by
  rw [get, known]

/-- What a request can come to: the kit is known, or the reader is asked for it and understood, or
there is a fault, of which nothing but the question is kept. -/
theorem get_cases (reader : Reader) (path : String) (c : Cache) :
    (∃ kit, c.find? path = some kit ∧ c.get reader path = (.ok kit, c)) ∨
    (c.find? path = none ∧ ∃ kit, reader.kit c.reads path = .ok kit ∧
      c.get reader path = (.ok kit, { c with reads := c.reads + 1 }.remember path kit)) ∨
    (c.find? path = none ∧ ∃ cause, reader.kit c.reads path = .error (.read path cause) ∧
      c.get reader path = (.error (.read path cause), { c with reads := c.reads + 1 })) := by
  cases known : c.find? path with
  | some kit => exact .inl ⟨kit, rfl, get_known known reader⟩
  | none =>
    right
    rw [get, known, Reader.kit]
    rcases reader c.reads path with cause | text
    · cases cause with
      | notFound => exact .inl ⟨rfl, {}, rfl, rfl⟩
      | _ => exact .inr ⟨rfl, _, rfl, rfl⟩
    · exact .inl ⟨rfl, Kit.ofText text, rfl, rfl⟩

def visit (reader : Reader) (path : String) (c : Cache) : Visit where
  path
  before := c
  outcome := (c.get reader path).1
  after := (c.get reader path).2

/-- Visits a cache for some paths, one after the other. -/
def visits (reader : Reader) : List String → Cache → List Visit
  | [], _ => []
  | path :: rest, c => c.visit reader path :: visits reader rest (c.visit reader path).after

/-- The cache after visits for some paths. -/
def getAll (reader : Reader) (paths : List String) (c : Cache) : Cache :=
  paths.foldl (fun c path => (c.get reader path).2) c

/-- What the visits so far have made of an empty cache. -/
structure Visited (done : List Visit) (c : Cache) : Prop where
  reads : c.reads = c.size + done.countP Visit.failed
  keys : c.kits.map Prod.fst = ((done.filter Visit.learns).map Visit.key).reverse
  distinct : (c.kits.map Prod.fst).Nodup
  known : ∀ path kit, c.find? path = some kit ↔
    ∃ v ∈ done, v.key = Path.components path ∧ v.outcome = .ok kit

/-- No visit has been made to an empty cache. -/
theorem visited_start : Visited [] {} where
  reads := rfl
  keys := rfl
  distinct := .nil
  known path kit := by simp [find?]

private theorem not_mem_keys (unknown : c.find? path = none) :
    Path.components path ∉ c.kits.map Prod.fst := by
  intro member
  obtain ⟨entry, inside, same⟩ := List.mem_map.1 member
  have apart := List.lookup_eq_none_iff.1 unknown entry inside
  rw [same] at apart
  exact absurd rfl (bne_iff_ne.1 apart)

/-- A kit is remembered under every path with the same components. -/
theorem find?_remember (c : Cache) (path other : String) (kit : Kit) :
    (c.remember path kit).find? other =
      if Path.components other = Path.components path then some kit else c.find? other := by
  rw [find?, remember, List.lookup_cons]
  by_cases same : Path.components other = Path.components path
  · rw [if_pos same, same, beq_self_eq_true]
  · rw [if_neg same, beq_false_of_ne same]
    rfl

theorem find?_congr {other : String} (same : Path.components path = Path.components other)
    (c : Cache) : c.find? path = c.find? other := by
  rw [find?, find?, same]

section Visited

variable {done : List Visit}

/-- What has been found is what was found before and what the last visit found. -/
theorem found_concat {last : Visit} {key : Path.Components} :
    (∃ v ∈ done ++ [last], v.key = key ∧ v.outcome = .ok kit) ↔
      (∃ v ∈ done, v.key = key ∧ v.outcome = .ok kit) ∨
        last.key = key ∧ last.outcome = .ok kit := by
  simp only [List.mem_append, List.mem_singleton, or_and_right, exists_or, exists_eq_left]

theorem Visited.visit_known (visited : Visited done c) (known : c.find? path = some kit) :
    Visited (done ++ [⟨path, c, .ok kit, c⟩]) c where
  reads := by
    rw [visited.reads, List.countP_append, List.countP_singleton]
    rfl
  keys := by simp [visited.keys, Visit.learns, known]
  distinct := visited.distinct
  known other found := by
    rw [found_concat, ← visited.known]
    refine ⟨.inl, ?_⟩
    rintro (before | ⟨same, outcome⟩)
    · exact before
    · cases outcome
      rw [← find?_congr same, known]

theorem Visited.visit_learns (visited : Visited done c) (unknown : c.find? path = none)
    (after : Cache) :
    Visited (done ++ [⟨path, c, .ok kit, after⟩])
      ({ c with reads := c.reads + 1 }.remember path kit) where
  reads := by
    have before : c.reads = c.kits.length + done.countP Visit.failed := visited.reads
    have fine : [Visit.mk path c (.ok kit) after].countP Visit.failed = 0 := rfl
    simp only [remember, size, List.length_cons, List.countP_append, fine]
    omega
  keys := by
    simp [remember, visited.keys, Visit.learns, Visit.key, unknown, Except.isOk, Except.toBool]
  distinct := List.nodup_cons.2 ⟨not_mem_keys unknown, visited.distinct⟩
  known other found := by
    rw [found_concat, ← visited.known, find?_remember]
    by_cases same : Path.components other = Path.components path
    · rw [if_pos same, find?_congr same, unknown]
      simp [Visit.key, same]
    · rw [if_neg same]
      refine ⟨.inl, ?_⟩
      rintro (before | ⟨alike, -⟩)
      · exact before
      · exact absurd alike.symm same

theorem Visited.visit_fails {fault : Fault} (visited : Visited done c) (after : Cache) :
    Visited (done ++ [⟨path, c, .error fault, after⟩]) { c with reads := c.reads + 1 } where
  reads := by
    have before : c.reads = c.kits.length + done.countP Visit.failed := visited.reads
    have fault : [Visit.mk path c (.error fault) after].countP Visit.failed = 1 := rfl
    simp only [size, List.countP_append, fault]
    omega
  keys := by
    simp [visited.keys, Visit.learns, Except.isOk, Except.toBool]
  distinct := visited.distinct
  known other found := by
    rw [found_concat, ← visited.known]
    refine ⟨.inl, ?_⟩
    rintro (before | ⟨-, outcome⟩)
    · exact before
    · cases outcome

/-- The log of the visits stays in step with the cache. -/
theorem Visited.visit (visited : Visited done c) (reader : Reader) (path : String) :
    Visited (done ++ [c.visit reader path]) (c.visit reader path).after := by
  rcases c.get_cases reader path with ⟨kit, known, got⟩ | ⟨unknown, kit, -, got⟩ | ⟨_, _, -, got⟩
  · simp only [Cache.visit, got]
    exact visited.visit_known known
  · simp only [Cache.visit, got]
    exact visited.visit_learns unknown _
  · simp only [Cache.visit, got]
    exact visited.visit_fails _

/-- After any visits, the cache is as its visits have made it. -/
theorem Visited.visits (visited : Visited done c) (reader : Reader) (paths : List String) :
    Visited (done ++ c.visits reader paths) (c.getAll reader paths) := by
  induction paths generalizing done c with
  | nil =>
    rw [Cache.visits, List.append_nil]
    exact visited
  | cons path rest ih =>
    rw [Cache.visits, List.append_cons]
    exact ih (visited.visit reader path)

/-- At each visit, the cache is as the visits before it have made it. -/
theorem Visited.at_visit {paths : List String} {earlier later : List Visit} {v : Visit}
    (visited : Visited done c) (split : c.visits reader paths = earlier ++ v :: later) :
    Visited (done ++ earlier) v.before ∧ v.before.get reader v.path = (v.outcome, v.after) := by
  induction paths generalizing done c earlier with
  | nil => simp [Cache.visits] at split
  | cons path rest ih =>
    rw [Cache.visits] at split
    cases earlier with
    | nil =>
      obtain ⟨rfl, -⟩ := List.cons.inj split
      rw [List.append_nil]
      exact ⟨visited, rfl⟩
    | cons first earlier =>
      obtain ⟨rfl, following⟩ := List.cons.inj split
      rw [List.append_cons]
      exact ih (visited.visit reader path) following

end Visited

private theorem getAll_append (reader : Reader) (first second : List String) (c : Cache) :
    c.getAll reader (first ++ second) = (c.getAll reader first).getAll reader second :=
  List.foldl_append

end Cache

/-! ## Whatever visits a cache -/

/-- The responses of kits, with a note of each path that the cache is visited for. -/
def notedResponses (reader : Reader) (layout : Layout) :
    Swagger.ResponseSource (Cache × List String) := fun e s =>
  ((s.1.declaredResponses reader layout e).1,
    (s.1.declaredResponses reader layout e).2, s.2 ++ [layout.kitPath e.group])

/-- What a cache is used for. -/
inductive Call where
  /-- For a kit itself. -/
  | kit (path : String)
  /-- For the responses of an endpoint. -/
  | responses (layout : Layout) (e : Endpoint)
  /-- For the endpoints of a group without a handler. -/
  | missing (layout : Layout) (g : Group)
  /-- For the document of a model. -/
  | document (layout : Layout) (m : Model)

namespace Call

variable {reader : Reader}

def perform (reader : Reader) : Call → Cache → Cache
  | kit path, c => (c.get reader path).2
  | responses layout e, c => (c.declaredResponses reader layout e).2
  | missing layout g, c => (c.missingHandlers reader layout g).2
  | document layout m, c => (Swagger.documentWithKits reader layout m c).2

/-- The paths that the cache is visited for, in order. -/
def paths (reader : Reader) : Call → Cache → List String
  | kit path, _ => [path]
  | responses layout e, _ => [layout.kitPath e.group]
  | missing layout g, _ => [layout.kitPath g.name]
  | document layout m, c => (Swagger.build (notedResponses reader layout) m (c, [])).2.2

/-- A document is the same with and without notes, and the visits that were noted are all there
were. -/
theorem build_noted (reader : Reader) (layout : Layout) (m : Model) (c : Cache) :
    (Swagger.documentWithKits reader layout m c).1 =
        (Swagger.build (notedResponses reader layout) m (c, [])).1 ∧
      (Swagger.documentWithKits reader layout m c).2 =
        c.getAll reader ((document layout m).paths reader c) := by
  have agree : Swagger.AgreeOn (fun s t => s = t.1 ∧ s = c.getAll reader t.2)
      (Swagger.kitResponses reader layout) (notedResponses reader layout) m.endpoints := by
    rintro e - - s ⟨_, noted⟩ ⟨rfl, after⟩
    refine ⟨rfl, rfl, ?_⟩
    rw [notedResponses, Cache.getAll_append, ← after]
    rfl
  obtain ⟨same, -, after⟩ := Swagger.build_agree (s := c) (t := (c, [])) agree ⟨rfl, rfl⟩
  exact ⟨same, after⟩

private theorem perform_eq_getAll (call : Call) (c : Cache) :
    call.perform reader c = c.getAll reader (call.paths reader c) := by
  cases call with
  | kit path => rfl
  | responses layout e => rfl
  | missing layout g => rfl
  | document layout m => exact (build_noted reader layout m c).2

/-- The cache after some calls. -/
def performAll (reader : Reader) (calls : List Call) (c : Cache) : Cache :=
  calls.foldl (fun c call => call.perform reader c) c

/-- The paths that some calls visit the cache for, in order. -/
def pathsAll (reader : Reader) : List Call → Cache → List String
  | [], _ => []
  | call :: rest, c => call.paths reader c ++ pathsAll reader rest (call.perform reader c)

/-- A session visits the paths of its calls and does nothing else to the cache. -/
theorem performAll_eq_getAll (calls : List Call) (c : Cache) :
    performAll reader calls c = c.getAll reader (pathsAll reader calls c) := by
  induction calls generalizing c with
  | nil => rfl
  | cons call rest ih =>
    rw [pathsAll, Cache.getAll_append, ← perform_eq_getAll, ← ih]
    rfl

end Call

/-! ## The memory of a cache -/

/-- What holds of the visits to a cache, and of the cache after them, if it was empty before. -/
structure Memo (reader : Reader) (made : List Visit) (c : Cache) : Prop where
  /-- The cache is what these visits have made of an empty one. -/
  after : c = Cache.getAll reader (made.map Visit.path) {}
  /-- Each question to the reader ends in memory or in a fault. -/
  reads : c.reads = c.size + made.countP Visit.failed
  /-- No file is remembered twice. -/
  distinct : (c.kits.map Prod.fst).Nodup
  /-- A fault is not remembered. -/
  failed : ∀ v ∈ made, v.failed = true → v.after.kits = v.before.kits
  /-- Until a kit has been found, the reader is asked, and it is taken as it is then. -/
  first : ∀ earlier v later, made = earlier ++ v :: later →
    (∀ u ∈ earlier, u.key = v.key → u.failed = true) →
    v.outcome = reader.kit v.before.reads v.path ∧ v.after.reads = v.before.reads + 1
  /-- After that, every visit finds that kit, whatever the reader would say now. -/
  later : ∀ earlier v between w last kit, made = earlier ++ v :: (between ++ w :: last) →
    v.outcome = .ok kit → w.key = v.key →
    w.outcome = .ok kit ∧ w.after = w.before ∧
      ∀ other : Reader, w.before.get other w.path = (.ok kit, w.before)
  /-- So each path is read with success at most once. -/
  once : ((made.filter Visit.learns).map Visit.key).Nodup

section Memo

variable {reader : Reader} {paths : List String}

theorem visits_path (c : Cache) : (c.visits reader paths).map Visit.path = paths := by
  induction paths generalizing c with
  | nil => rfl
  | cons path rest ih => exact congrArg (path :: ·) (ih _)

/-- A cache that was visited for any paths remembers what it has found. -/
theorem memo_visits (reader : Reader) (paths : List String) :
    Memo reader (Cache.visits reader paths {}) (Cache.getAll reader paths {}) := by
  have visited := Cache.visited_start.visits reader paths
  rw [List.nil_append] at visited
  have reached : ∀ {earlier v later}, Cache.visits reader paths {} = earlier ++ v :: later →
      Cache.Visited earlier v.before ∧ v.before.get reader v.path = (v.outcome, v.after) :=
    fun split => Cache.visited_start.at_visit split
  constructor
  case after => rw [visits_path]
  case reads => exact visited.reads
  case distinct => exact visited.distinct
  case failed =>
    intro v member failed
    obtain ⟨earlier, later, split⟩ := List.append_of_mem member
    obtain ⟨-, got⟩ := reached split
    rcases v.before.get_cases reader v.path with ⟨kit, -, found⟩ | ⟨-, kit, -, found⟩ |
      ⟨-, cause, -, found⟩
    · rw [Visit.failed, (Prod.mk.inj (got.symm.trans found)).1] at failed
      cases failed
    · rw [Visit.failed, (Prod.mk.inj (got.symm.trans found)).1] at failed
      cases failed
    · rw [(Prod.mk.inj (got.symm.trans found)).2]
  case first =>
    intro earlier v later split unfound
    obtain ⟨before, got⟩ := reached split
    have unknown : v.before.find? v.path = none := by
      by_contra known
      obtain ⟨kit, known⟩ := Option.ne_none_iff_exists'.1 known
      obtain ⟨u, member, same, found⟩ := (before.known v.path kit).1 known
      have failed := unfound u member same
      simp [Visit.failed, found, Except.isOk, Except.toBool] at failed
    rcases v.before.get_cases reader v.path with ⟨kit, known, -⟩ | ⟨-, kit, read, asked⟩ |
      ⟨-, cause, read, asked⟩
    · rw [unknown] at known
      cases known
    · obtain ⟨outcome, after⟩ := Prod.mk.inj (got.symm.trans asked)
      exact ⟨outcome.trans read.symm, congrArg Cache.reads after⟩
    · obtain ⟨outcome, after⟩ := Prod.mk.inj (got.symm.trans asked)
      exact ⟨outcome.trans read.symm, congrArg Cache.reads after⟩
  case later =>
    intro earlier v between w last kit split found alike
    rw [← List.cons_append, ← List.append_assoc] at split
    obtain ⟨before, got⟩ := reached split
    have known : w.before.find? w.path = some kit := by
      refine (before.known w.path kit).2 ⟨v, ?_, alike.symm, found⟩
      exact List.mem_append_right _ List.mem_cons_self
    rw [Cache.get_known known] at got
    obtain ⟨outcome, after⟩ := Prod.mk.inj got
    exact ⟨outcome.symm, after.symm, Cache.get_known known⟩
  case once =>
    have distinct := visited.distinct
    rw [visited.keys, List.nodup_reverse] at distinct
    exact distinct

/-- A cache remembers, whatever it is used for and whatever the reader says at each question: its
counter is what it remembers and the faults, no fault is remembered, and the first kit that is found
at a path is the one that every later visit finds. -/
theorem cache_remembers (reader : Reader) (calls : List Call) :
    Memo reader (Cache.visits reader (Call.pathsAll reader calls {}) {})
      (Call.performAll reader calls {}) := by
  rw [Call.performAll_eq_getAll]
  exact memo_visits reader _

/-- A reader that is not allowed to read at first, then reads, and finds nothing from then on. -/
def fickleReader : Reader
  | 0, _ => .error (.refused "permission denied")
  | 1, _ => .ok "func FilesApi(req *Req) Resp \x7b\n\x7d\n"
  | _, _ => .error .notFound

/-- One kit, asked for in three ways. -/
def kitCalls : List Call :=
  [.kit "./gopher/app//api/web/web_kit.go", .responses {} { name := "files", group := "web" },
    .missing {} { name := "web" }]

theorem cache_remembers_fickle :
    (Cache.visits fickleReader (Call.pathsAll fickleReader kitCalls {}) {}).map Visit.failed =
      [true, false, false] ∧
    (Call.performAll fickleReader kitCalls {}).reads = 2 ∧
    (Call.performAll fickleReader kitCalls {}).size = 1 ∧
    Memo fickleReader (Cache.visits fickleReader (Call.pathsAll fickleReader kitCalls {}) {})
      (Call.performAll fickleReader kitCalls {}) :=
  ⟨by decide +kernel, by decide +kernel, by decide +kernel,
    cache_remembers fickleReader kitCalls⟩

end Memo

end ApiOutline.Kit
