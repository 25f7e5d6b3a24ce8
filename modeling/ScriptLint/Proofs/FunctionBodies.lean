import ScriptLint.Shell.Function

/-!
The functions of a script that leak variables. Main statements: `map_declaredAt_leakingFunctions`,
they are reported in the order of their declarations, and `declared_of_mem_leakingFunctions`, each
one is declared on the line that is reported.
-/

namespace ScriptLint.Shell

/-- The lines of the declarations are some of the lines that are read, in their order; the function
that is open at the start may come before them. -/
theorem map_declaredAt_leakingFunctions (opened : Option Body) (ls : List (Nat × Line)) :
    ((leakingFunctions opened ls).map (·.declaredAt)).Sublist
      (opened.toList.map (·.declaredAt) ++ ls.map Prod.fst) := by
  -- The open function is reported, if at all, before any function that is declared on the lines
  -- that are left.
  fun_induction leakingFunctions opened ls with
  | case1 => simp
  | case2 opened n line rest name hdeclared ih =>
    refine ih.trans (List.Sublist.trans ?_ (List.sublist_append_right _ _))
    by_cases honeLiner : isOneLiner line = true
    · simp [honeLiner]
    · simp [honeLiner]
  | case3 n line rest hdeclared ih => exact ih.trans (List.sublist_cons_self n _)
  | case4 n line rest hdeclared body hclosing hleaks ih =>
    exact List.Sublist.cons_cons body.declaredAt (ih.trans (List.sublist_cons_self n _))
  | case5 n line rest hdeclared body hclosing hleaks ih =>
    exact ih.trans ((List.sublist_cons_self n _).trans (List.sublist_cons_self body.declaredAt _))
  | case6 n line rest hdeclared body hclosing ih =>
    exact ih.trans (List.Sublist.cons_cons body.declaredAt (List.sublist_cons_self n _))

/-- Each function is declared on the line that is reported, unless it was open at the start. -/
theorem declared_of_mem_leakingFunctions {opened : Option Body} {ls : List (Nat × Line)}
    {body : Body} (h : body ∈ leakingFunctions opened ls) :
    (∃ first ∈ opened, body.declaredAt = first.declaredAt ∧ body.name = first.name) ∨
      ∃ line, (body.declaredAt, line) ∈ ls ∧ declaredFunction? line = some body.name := by
  fun_induction leakingFunctions opened ls with
  | case1 => cases h
  | case2 opened n line rest name hdeclared ih =>
    rcases ih h with ⟨first, hfirst, hat, hname⟩ | ⟨line', hm, hd⟩
    · split at hfirst
      · cases hfirst
      · cases hfirst
        exact .inr ⟨line, by simp [hat], hname ▸ hdeclared⟩
    · exact .inr ⟨line', List.mem_cons_of_mem _ hm, hd⟩
  | case3 n line rest hdeclared ih =>
    rcases ih h with ⟨first, hfirst, _⟩ | ⟨line', hm, hd⟩
    · cases hfirst
    · exact .inr ⟨line', List.mem_cons_of_mem _ hm, hd⟩
  | case4 n line rest hdeclared body' hclosing hleaks ih =>
    rcases List.mem_cons.mp h with rfl | h
    · exact .inl ⟨_, rfl, rfl, rfl⟩
    · rcases ih h with ⟨first, hfirst, _⟩ | ⟨line', hm, hd⟩
      · cases hfirst
      · exact .inr ⟨line', List.mem_cons_of_mem _ hm, hd⟩
  | case5 n line rest hdeclared body' hclosing hleaks ih =>
    rcases ih h with ⟨first, hfirst, _⟩ | ⟨line', hm, hd⟩
    · cases hfirst
    · exact .inr ⟨line', List.mem_cons_of_mem _ hm, hd⟩
  | case6 n line rest hdeclared body' hclosing ih =>
    rcases ih h with ⟨first, hfirst, hat, hname⟩ | ⟨line', hm, hd⟩
    · cases hfirst
      exact .inl ⟨body', rfl, hat, hname⟩
    · exact .inr ⟨line', List.mem_cons_of_mem _ hm, hd⟩

end ScriptLint.Shell
