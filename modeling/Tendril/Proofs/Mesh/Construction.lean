import Tendril.Proofs.Guarded.Mesh

/-!
# Meshes made step by step

Whoever makes a mesh is told an index for every point, and builds edges and quads on the indices
that were told. Points may be appended, moved and joined with those of other meshes in between:
an index goes on to mean its point, and as long as the indices of every edge and quad differ the
mesh is valid at any time. `Construction` keeps the history of a mesh, with those of the meshes that
went into it.
-/

namespace Tendril

variable {α : Type}

/-- A mesh as it was made, one operation after the other. -/
inductive Construction (α : Type) where
  | empty
  | addVertex (before : Construction α) (p : Vec3 α)
  | addEdge (before : Construction α) (e : Edge)
  | addQuad (before : Construction α) (q : Quad)
  | move (before : Construction α) (offset : Vec3 α)
  | merge (before other : Construction α)

/-! ## Validity -/

namespace Mesh

theorem vertexCount_addVertex (m : Mesh α) (p : Vec3 α) :
    (m.addVertex p).2.vertexCount = m.vertexCount + 1 := Array.size_push ..

theorem isValid_empty : (empty : Mesh α).isValid = true := by simp [isValid, empty]

/-- A further point leaves edges and quads what they are. -/
theorem isValid_addVertex {m : Mesh α} {p : Vec3 α} (few : m.vertexCount + 1 < 2 ^ 32)
    (valid : m.isValid = true) : (m.addVertex p).2.isValid = true := by
  have onward : ∀ {numbers}, Names m.vertexCount numbers → Names (m.vertexCount + 1) numbers :=
    fun names => ⟨fun n member => Nat.lt_succ_of_lt (names.inside n member), names.distinct⟩
  obtain ⟨edges, quads⟩ := (isValid_iff_names (by omega)).mp valid
  rw [isValid_iff_names (by rwa [vertexCount_addVertex]), vertexCount_addVertex]
  exact ⟨fun numbers member => onward (edges numbers member),
    fun numbers member => onward (quads numbers member)⟩

theorem isValid_addSides {m : Mesh α} {edges : List Edge} {quads : List Quad}
    (few : m.vertexCount < 2 ^ 32) (valid : m.isValid = true)
    (edgesName : ∀ e ∈ edges, Names m.vertexCount e.numbers)
    (quadsName : ∀ q ∈ quads, Names m.vertexCount q.numbers) :
    (m.addSides edges quads).isValid = true := by
  have points : (m.addSides edges quads).vertexCount = m.vertexCount := rfl
  obtain ⟨edgesBefore, quadsBefore⟩ := (isValid_iff_names few).mp valid
  rw [isValid_iff_names (by rwa [points]), points]
  constructor
  · show ∀ numbers ∈ (m.edges ++ edges).toList.map Edge.numbers, Names _ numbers
    rw [Array.toList_appendList, List.map_append, List.forall_mem_append]
    exact ⟨edgesBefore, List.forall_mem_map.mpr edgesName⟩
  · show ∀ numbers ∈ (m.quads ++ quads).toList.map Quad.numbers, Names _ numbers
    rw [Array.toList_appendList, List.map_append, List.forall_mem_append]
    exact ⟨quadsBefore, List.forall_mem_map.mpr quadsName⟩

theorem isValid_addEdge {m : Mesh α} {e : Edge} (few : m.vertexCount < 2 ^ 32)
    (valid : m.isValid = true) (names : Names m.vertexCount e.numbers) :
    (m.addEdge e).isValid = true := by
  rw [addEdge_eq]
  exact isValid_addSides few valid (List.forall_mem_singleton.mpr names) (List.forall_mem_nil _)

theorem isValid_addQuad {m : Mesh α} {q : Quad} (few : m.vertexCount < 2 ^ 32)
    (valid : m.isValid = true) (names : Names m.vertexCount q.numbers) :
    (m.addQuad q).isValid = true := by
  rw [addQuad_eq]
  exact isValid_addSides few valid (List.forall_mem_nil _) (List.forall_mem_singleton.mpr names)

theorem isValid_merge {m other : Mesh α} (few : (m.merge other).vertexCount < 2 ^ 32)
    (valid : m.isValid = true) (sound : other.isValid = true) :
    (m.merge other).isValid = true := by
  have joined : mergeAll [m, other] = m.merge other := by
    rw [mergeAll_cons, mergeAll_cons]
    exact congrArg m.merge (merge_empty other)
  rw [← joined]
  apply isValid_mergeAll
  · rwa [← vertexCount_mergeAll, joined]
  · intro part member
    rcases List.mem_pair.mp member with rfl | rfl
    · exact valid
    · exact sound

/-! ## Meanings -/

/-- An index that is answered for a point means the point. -/
theorem vertex?_addVertex {m : Mesh α} (few : m.vertexCount < 2 ^ 32) (p : Vec3 α) :
    (m.addVertex p).2.vertex? (m.addVertex p).1 = some p := by
  show (m.vertices.push p)[m.nextIndex.toNat]? = some p
  rw [toNat_nextIndex few]
  exact Array.getElem?_push_size

/-- An index of a mesh that is joined on means the same point when it is moved past the points that
were there. -/
theorem vertex?_merge {m other : Mesh α} (few : (m.merge other).vertexCount < 2 ^ 32) {i : Index}
    (inside : i.toNat < other.vertexCount) :
    (m.merge other).vertex? (i + m.nextIndex) = other.vertex? i := by
  rw [vertexCount_merge] at few
  show (m.vertices ++ other.vertices)[(i + m.nextIndex).toNat]? = other.vertices[i.toNat]?
  have number : (i + m.nextIndex).toNat = i.toNat + m.vertices.size := toNat_move (by omega)
  rw [number, Array.getElem?_append_right (Nat.le_add_left ..), Nat.add_sub_cancel]

theorem exists_vertex? {m : Mesh α} {i : Index} (inside : i.toNat < m.vertexCount) :
    ∃ p, m.vertex? i = some p :=
  ⟨m.vertices[i.toNat], Array.getElem?_eq_getElem inside⟩

end Mesh

/-- Where a point comes to be when it is moved time after time. -/
def Vec3.movedBy [Scalar α] (p : Vec3 α) (moves : List (Vec3 α)) : Vec3 α := moves.foldl (· + ·) p

variable [Scalar α]

namespace Mesh

theorem vertexCount_move (m : Mesh α) (offset : Vec3 α) :
    (m.move offset).vertexCount = m.vertexCount := Array.size_map ..

theorem isValid_move (m : Mesh α) (offset : Vec3 α) : (m.move offset).isValid = m.isValid := by
  have next : (m.move offset).nextIndex = m.nextIndex := by
    rw [nextIndex, vertexCount_move, nextIndex]
  rw [isValid, next]
  rfl

/-! ## Points that stay -/

/-- A mesh with all the points of another one, moved on the way but under their old indices. -/
structure Carries (moves : List (Vec3 α)) (m later : Mesh α) : Prop where
  count_le : m.vertexCount ≤ later.vertexCount
  vertices : ∀ n < m.vertexCount, later.vertices[n]? = m.vertices[n]?.map (·.movedBy moves)

namespace Carries

variable {moves : List (Vec3 α)} {m later next : Mesh α}

theorem refl (m : Mesh α) : Carries [] m m where
  count_le := Nat.le_refl _
  vertices n _ := by
    show m.vertices[n]? = m.vertices[n]?.map id
    rw [Option.map_id_fun, id]

/-- Points are only ever appended. -/
theorem append (carries : Carries moves m later) {more : Array (Vec3 α)}
    (appended : next.vertices = later.vertices ++ more) : Carries moves m next := by
  have count : next.vertexCount = later.vertexCount + more.size := by
    rw [vertexCount, appended, Array.size_append]
    rfl
  refine ⟨?_, fun n inside => ?_⟩
  · rw [count]
    exact Nat.le_add_right_of_le carries.count_le
  · have held : n < later.vertices.size := Nat.lt_of_lt_of_le inside carries.count_le
    rw [appended, Array.getElem?_append_left held, carries.vertices n inside]

theorem move (carries : Carries moves m later) (offset : Vec3 α) :
    Carries (moves ++ [offset]) m (later.move offset) := by
  refine ⟨?_, fun n inside => ?_⟩
  · rw [vertexCount_move]
    exact carries.count_le
  · show (later.vertices.map (· + offset))[n]? = _
    rw [Array.getElem?_map, carries.vertices n inside, Option.map_map]
    congr 1
    funext p
    simp [Vec3.movedBy]

theorem vertex? (carries : Carries moves m later) {i : Index} {p : Vec3 α}
    (meant : m.vertex? i = some p) : later.vertex? i = some (p.movedBy moves) := by
  have inside : i.toNat < m.vertexCount := by
    by_contra outside
    rw [Mesh.vertex?, Array.getElem?_eq_none (Nat.le_of_not_lt outside)] at meant
    cases meant
  rw [Mesh.vertex?] at meant ⊢
  rw [carries.vertices _ inside, meant]
  rfl

end Carries

end Mesh

namespace Construction

/-- The mesh that was made. -/
def mesh : Construction α → Mesh α
  | empty => .empty
  | addVertex c p => (c.mesh.addVertex p).2
  | addEdge c e => c.mesh.addEdge e
  | addQuad c q => c.mesh.addQuad q
  | move c offset => c.mesh.move offset
  | merge c other => c.mesh.merge other.mesh

/-- The indices that were told, in order: the answer for every point that was appended, and those
told for a mesh that was joined on, moved past the points that were there. -/
def told : Construction α → List Index
  | empty => []
  | addVertex c p => c.told ++ [(c.mesh.addVertex p).1]
  | addEdge c _ | addQuad c _ | move c _ => c.told
  | merge c other => c.told ++ other.told.map (· + c.mesh.nextIndex)

/-- Every edge and every quad was built on indices told before, each another one. -/
def Careful : Construction α → Prop
  | empty => True
  | addVertex c _ | move c _ => c.Careful
  | addEdge c e => c.Careful ∧ (∀ i ∈ e.indices, i ∈ c.told) ∧ e.indices.Nodup
  | addQuad c q => c.Careful ∧ (∀ i ∈ q.indices, i ∈ c.told) ∧ q.indices.Nodup
  | merge c other => c.Careful ∧ other.Careful

instance decidableCareful : (c : Construction α) → Decidable c.Careful
  | empty => inferInstanceAs (Decidable True)
  | addVertex c _ | move c _ => decidableCareful c
  | addEdge c e =>
      have := decidableCareful c
      -- The indices of the edge are looked at, not all there are.
      have := List.decidableBAll (· ∈ c.told) e.indices
      inferInstanceAs (Decidable (c.Careful ∧ (∀ i ∈ e.indices, i ∈ c.told) ∧ e.indices.Nodup))
  | addQuad c q =>
      have := decidableCareful c
      have := List.decidableBAll (· ∈ c.told) q.indices
      inferInstanceAs (Decidable (c.Careful ∧ (∀ i ∈ q.indices, i ∈ c.told) ∧ q.indices.Nodup))
  | merge c other =>
      have := decidableCareful c
      have := decidableCareful other
      inferInstanceAs (Decidable (c.Careful ∧ other.Careful))

/-- Going on from `b`, one came to make `c`, and moved all points by `moves` on the way. -/
inductive LeadsTo (b : Construction α) : List (Vec3 α) → Construction α → Prop
  | here : LeadsTo b [] b
  | addVertex {moves c} (p : Vec3 α) : LeadsTo b moves c → LeadsTo b moves (c.addVertex p)
  | addEdge {moves c} (e : Edge) : LeadsTo b moves c → LeadsTo b moves (c.addEdge e)
  | addQuad {moves c} (q : Quad) : LeadsTo b moves c → LeadsTo b moves (c.addQuad q)
  | move {moves c} (offset : Vec3 α) :
      LeadsTo b moves c → LeadsTo b (moves ++ [offset]) (c.move offset)
  | merge {moves c} (other : Construction α) : LeadsTo b moves c → LeadsTo b moves (c.merge other)

/-- Meshes that are joined all at once. -/
def joined (parts : List (Construction α)) : Construction α := parts.foldl merge empty

variable {b c : Construction α} {moves : List (Vec3 α)}

/-! ## Indices -/

/-- The indices are told one after the other, from the first on, whatever was joined on. -/
theorem told_eq (c : Construction α) : c.told = (List.range c.mesh.vertexCount).map UInt32.ofNat := by
  induction c with
  | empty => rfl
  | addVertex c p ih =>
      show c.told ++ [c.mesh.nextIndex] = _
      rw [ih, mesh, Mesh.vertexCount_addVertex, List.range_succ, List.map_append]
      rfl
  | addEdge c e ih => exact ih
  | addQuad c q ih => exact ih
  | move c offset ih =>
      rw [mesh, Mesh.vertexCount_move]
      exact ih
  | merge c other ihBefore ihOther =>
      have past : ∀ n, UInt32.ofNat n + c.mesh.nextIndex =
          UInt32.ofNat (c.mesh.vertexCount + n) := by
        intro n
        rw [UInt32.ofNat_add, UInt32.add_comm]
        rfl
      rw [told, ihBefore, ihOther, mesh, Mesh.vertexCount_merge, List.range_add, List.map_append,
        List.map_map, List.map_map]
      congr 2
      funext n
      exact past n

/-- Where the points can be numbered, the numbers of the indices are those of the points. -/
theorem numbers_told (few : c.mesh.vertexCount < 2 ^ 32) :
    c.told.map UInt32.toNat = List.range c.mesh.vertexCount := by
  have same : ∀ n ∈ List.range c.mesh.vertexCount, (UInt32.toNat ∘ UInt32.ofNat) n = n := by
    intro n inside
    have below := List.mem_range.mp inside
    exact toNat_ofNat_of_fits (by omega)
  rw [told_eq, List.map_map, List.map_congr_left same, List.map_id']

theorem nodup_told (few : c.mesh.vertexCount < 2 ^ 32) : c.told.Nodup := by
  apply List.Nodup.of_map UInt32.toNat
  rw [numbers_told few]
  exact List.nodup_range

theorem toNat_lt_of_told (few : c.mesh.vertexCount < 2 ^ 32) {i : Index} (told : i ∈ c.told) :
    i.toNat < c.mesh.vertexCount := by
  have number : i.toNat ∈ c.told.map UInt32.toNat := List.mem_map_of_mem told
  rw [numbers_told few] at number
  exact List.mem_range.mp number

/-- Different indices that were told name points, each another one. -/
theorem names_of_told (few : c.mesh.vertexCount < 2 ^ 32) {indices : List Index}
    (told : ∀ i ∈ indices, i ∈ c.told) (differ : indices.Nodup) :
    Names c.mesh.vertexCount (indices.map UInt32.toNat) where
  inside := List.forall_mem_map.mpr fun i named => toNat_lt_of_told few (told i named)
  distinct := differ.map fun _ _ => UInt32.toNat_inj.mp

/-! ## The whole history -/

theorem isValid_of_careful (careful : c.Careful) (few : c.mesh.vertexCount < 2 ^ 32) :
    c.mesh.isValid = true := by
  induction c with
  | empty => exact Mesh.isValid_empty
  | addVertex c p ih =>
      have room : c.mesh.vertexCount + 1 < 2 ^ 32 := by rwa [← Mesh.vertexCount_addVertex _ p]
      exact Mesh.isValid_addVertex room (ih careful (by omega))
  | addEdge c e ih =>
      obtain ⟨before, told, differ⟩ := careful
      exact Mesh.isValid_addEdge few (ih before few) (names_of_told few told differ)
  | addQuad c q ih =>
      obtain ⟨before, told, differ⟩ := careful
      exact Mesh.isValid_addQuad few (ih before few) (names_of_told few told differ)
  | move c offset ih =>
      rw [mesh, Mesh.vertexCount_move] at few
      rw [mesh, Mesh.isValid_move]
      exact ih careful few
  | merge c other ihBefore ihOther =>
      obtain ⟨before, joinedOn⟩ := careful
      have room : c.mesh.vertexCount + other.mesh.vertexCount < 2 ^ 32 := by
        rwa [← Mesh.vertexCount_merge]
      exact Mesh.isValid_merge few (ihBefore before (by omega)) (ihOther joinedOn (by omega))

theorem LeadsTo.careful (leads : b.LeadsTo moves c) (careful : c.Careful) : b.Careful := by
  induction leads with
  | here => exact careful
  | addVertex p _ ih => exact ih careful
  | addEdge e _ ih => exact ih careful.1
  | addQuad q _ ih => exact ih careful.1
  | move offset _ ih => exact ih careful
  | merge other _ ih => exact ih careful.1

/-- Nothing that is done to a mesh takes a point away or gives its index to another. -/
theorem LeadsTo.carries (leads : b.LeadsTo moves c) : Mesh.Carries moves b.mesh c.mesh := by
  induction leads with
  | here => exact .refl _
  | addVertex p _ ih => exact ih.append Array.push_eq_append
  | addEdge e _ ih => exact ih.append Array.append_empty.symm
  | addQuad q _ ih => exact ih.append Array.append_empty.symm
  | move offset _ ih => exact ih.move offset
  | merge other _ ih => exact ih.append rfl

/-- What is joined at once might have been joined part by part. -/
theorem mesh_joined (parts : List (Construction α)) :
    (joined parts).mesh = .mergeAll (parts.map mesh) := by
  have onward : ∀ c : Construction α,
      (parts.foldl merge c).mesh = (parts.map mesh).foldl Mesh.merge c.mesh := by
    induction parts with
    | nil => exact fun _ => rfl
    | cons part rest ih => exact fun c => ih (c.merge part)
  exact onward empty

theorem careful_joined {parts : List (Construction α)} (careful : ∀ part ∈ parts, part.Careful) :
    (joined parts).Careful := by
  suffices onward : ∀ c : Construction α, c.Careful → (parts.foldl merge c).Careful from
    onward empty trivial
  intro c before
  induction parts generalizing c with
  | nil => exact before
  | cons part rest ih =>
      exact ih (fun other member => careful other (List.mem_cons_of_mem part member)) _
        ⟨before, careful part List.mem_cons_self⟩

/-- A mesh that was made with care is valid all along, as long as its points can be numbered. The
indices told for it are all different; each goes on to mean the point that it was told for, wherever
that has been moved since, and so do those told for a mesh that was joined on. Moving touches no
edge and no quad. Meshes made with care can also be joined all at once. -/
theorem sound_throughout (careful : c.Careful) (few : c.mesh.vertexCount < 2 ^ 32) :
    (∀ (b : Construction α) moves, b.LeadsTo moves c → b.mesh.isValid = true) ∧
      (∀ (b : Construction α) p moves, (b.addVertex p).LeadsTo moves c →
        c.mesh.vertex? (b.mesh.addVertex p).1 = some (p.movedBy moves)) ∧
      (∀ b other : Construction α, ∀ moves, (b.merge other).LeadsTo moves c →
        ∀ i ∈ other.told, ∃ p, other.mesh.vertex? i = some p ∧
          c.mesh.vertex? (i + b.mesh.nextIndex) = some (p.movedBy moves)) ∧
      c.told.Nodup ∧
      (∀ (b : Construction α) offset moves, (b.move offset).LeadsTo moves c →
        (b.move offset).mesh.edges = b.mesh.edges ∧ (b.move offset).mesh.quads = b.mesh.quads) ∧
      ∀ parts : List (Construction α), (∀ part ∈ parts, part.Careful) →
        (joined parts).Careful ∧ (joined parts).mesh = .mergeAll (parts.map mesh) := by
  refine ⟨?_, ?_, ?_, nodup_told few, fun _ _ _ _ => ⟨rfl, rfl⟩,
    fun parts sound => ⟨careful_joined sound, mesh_joined parts⟩⟩
  · intro b moves leads
    exact isValid_of_careful (leads.careful careful) (leads.carries.count_le.trans_lt few)
  · intro b p moves leads
    have room : (b.mesh.addVertex p).2.vertexCount < 2 ^ 32 :=
      leads.carries.count_le.trans_lt few
    rw [Mesh.vertexCount_addVertex] at room
    exact leads.carries.vertex? (Mesh.vertex?_addVertex (by omega) p)
  · intro b other moves leads i told
    have room : (b.mesh.merge other.mesh).vertexCount < 2 ^ 32 :=
      leads.carries.count_le.trans_lt few
    have fits := room
    rw [Mesh.vertexCount_merge] at fits
    have inside : i.toNat < other.mesh.vertexCount := toNat_lt_of_told (by omega) told
    obtain ⟨p, meant⟩ := Mesh.exists_vertex? inside
    exact ⟨p, meant, leads.carries.vertex? ((Mesh.vertex?_merge room inside).trans meant)⟩

/-- A stick. -/
def stick : Construction Float :=
  ((empty.addVertex ⟨0, 0, 0⟩).addVertex ⟨0, 0, 1⟩).addEdge ⟨0, 1⟩

/-- One side of a sail. -/
def foot : Construction Float := (empty.addVertex ⟨0, 0, 0⟩).addVertex ⟨1, 0, 0⟩

/-- A sail that was lifted. -/
def sail : Construction Float :=
  (((foot.addVertex ⟨1, 1, 0⟩).addVertex ⟨0, 1, 0⟩).addQuad ⟨0, 1, 2, 3⟩).move ⟨0, 0, 2⟩

/-- A sail with a stick joined on, and a stay from one to the other; then all was moved. -/
def boat : Construction Float := ((sail.merge stick).addEdge ⟨2, 5⟩).move ⟨1, 0, 0⟩

theorem boat_sound_throughout :
    boat.Careful ∧ boat.mesh.vertexCount < 2 ^ 32 ∧ boat.mesh.isValid = true ∧
      boat.mesh.vertex? 2 = some ((⟨1, 1, 0⟩ : Vec3 Float).movedBy [⟨0, 0, 2⟩, ⟨1, 0, 0⟩]) ∧
      (∃ p, stick.mesh.vertex? 1 = some p ∧
        boat.mesh.vertex? 5 = some (p.movedBy [⟨1, 0, 0⟩])) ∧
      boat.told = [0, 1, 2, 3, 4, 5] ∧ boat.told.Nodup ∧
      (joined [stick, boat]).mesh = .mergeAll [stick.mesh, boat.mesh] := by
  have careful : boat.Careful := by decide +kernel
  have few : boat.mesh.vertexCount < 2 ^ 32 := by decide +kernel
  obtain ⟨valid, meant, meantThere, differ, _, together⟩ := sound_throughout careful few
  refine ⟨careful, few, valid boat [] .here, ?_, ?_, by decide +kernel, differ, ?_⟩
  · have raised : (foot.addVertex ⟨1, 1, 0⟩).LeadsTo [⟨0, 0, 2⟩, ⟨1, 0, 0⟩] boat :=
      .move _ (.addEdge _ (.merge _ (.move _ (.addQuad _ (.addVertex _ .here)))))
    have index : (foot.mesh.addVertex ⟨1, 1, 0⟩).1 = 2 := by decide +kernel
    have corner := meant foot ⟨1, 1, 0⟩ _ raised
    rwa [index] at corner
  · have joinedOn : (sail.merge stick).LeadsTo [⟨1, 0, 0⟩] boat := .move _ (.addEdge _ .here)
    have index : 1 + sail.mesh.nextIndex = 5 := by decide +kernel
    have tip := meantThere sail stick _ joinedOn 1 (by decide +kernel)
    rwa [index] at tip
  · have each : ∀ part ∈ [stick, boat], part.Careful := by decide +kernel
    exact (together [stick, boat] each).2

end Construction

end Tendril
