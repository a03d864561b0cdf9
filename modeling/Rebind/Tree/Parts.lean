/-!
# The parts of nodes

For every kind of node that has nodes in it, the fields that hold them, in the
order in which they are visited. It is not always the order in which they are
written: the decorators and the body of a class come before the class it
extends, the test of a loop before its body even when it is written behind it,
and the expressions of a template before its texts.
-/

namespace Rebind.Tree

/-- The kinds of nodes with their parts, in the order of visits. -/
def partTable : List (String × List String) := [
    ("ArrayExpression", ["elements"]),
    ("ArrayPattern", ["elements", "typeAnnotation"]),
    ("ArrowFunctionExpression", ["params", "body", "typeParameters", "returnType"]),
    ("AssignmentExpression", ["left", "right"]),
    ("AssignmentPattern", ["left", "right"]),
    ("AssignmentPatternProperty", ["key", "value"]),
    ("AssignmentProperty", ["key", "value"]),
    ("AutoAccessor", ["key", "value", "typeAnnotation", "decorators"]),
    ("AwaitExpression", ["argument"]),
    ("BinaryExpression", ["left", "right"]),
    ("BlockStatement", ["stmts"]),
    ("BreakStatement", ["label"]),
    ("CallExpression", ["callee", "arguments", "typeArguments"]),
    ("CatchClause", ["param", "body"]),
    ("ClassDeclaration",
      ["identifier", "decorators", "body", "superClass", "typeParams", "superTypeParams", "implements"]),
    ("ClassExpression",
      ["identifier", "decorators", "body", "superClass", "typeParams", "superTypeParams", "implements"]),
    ("ClassMethod", ["key", "function"]),
    ("ClassProperty", ["key", "value", "typeAnnotation", "decorators"]),
    ("Computed", ["expression"]),
    ("ConditionalExpression", ["test", "consequent", "alternate"]),
    ("Constructor", ["key", "params", "body"]),
    ("ContinueStatement", ["label"]),
    ("Decorator", ["expression"]),
    ("DoWhileStatement", ["test", "body"]),
    ("ExportAllDeclaration", ["source", "with"]),
    ("ExportDeclaration", ["declaration"]),
    ("ExportDefaultDeclaration", ["decl"]),
    ("ExportDefaultExpression", ["expression"]),
    ("ExportDefaultSpecifier", ["exported"]),
    ("ExportNamedDeclaration", ["specifiers", "source", "with"]),
    ("ExportNamespaceSpecifier", ["name"]),
    ("ExportSpecifier", ["orig", "exported"]),
    ("ExpressionStatement", ["expression"]),
    ("ForInStatement", ["left", "right", "body"]),
    ("ForOfStatement", ["left", "right", "body"]),
    ("ForStatement", ["init", "test", "update", "body"]),
    ("FunctionDeclaration",
      ["identifier", "params", "decorators", "body", "typeParameters", "returnType"]),
    ("FunctionExpression",
      ["identifier", "params", "decorators", "body", "typeParameters", "returnType"]),
    ("GetterProperty", ["key", "typeAnnotation", "body"]),
    ("Identifier", ["typeAnnotation"]),
    ("IfStatement", ["test", "consequent", "alternate"]),
    ("ImportDeclaration", ["specifiers", "source", "with"]),
    ("ImportDefaultSpecifier", ["local"]),
    ("ImportNamespaceSpecifier", ["local"]),
    ("ImportSpecifier", ["local", "imported"]),
    ("JSXAttribute", ["name", "value"]),
    ("JSXClosingElement", ["name"]),
    ("JSXElement", ["opening", "children", "closing"]),
    ("JSXExpressionContainer", ["expression"]),
    ("JSXFragment", ["opening", "children", "closing"]),
    ("JSXMemberExpression", ["object", "property"]),
    ("JSXNamespacedName", ["namespace", "name"]),
    ("JSXOpeningElement", ["name", "attributes", "typeArguments"]),
    ("JSXSpreadChild", ["expression"]),
    ("KeyValuePatternProperty", ["key", "value"]),
    ("KeyValueProperty", ["key", "value"]),
    ("LabeledStatement", ["label", "body"]),
    ("MemberExpression", ["object", "property"]),
    ("MethodProperty", ["key", "params", "decorators", "body", "typeParameters", "returnType"]),
    ("Module", ["body"]),
    ("NewExpression", ["callee", "arguments", "typeArguments"]),
    ("ObjectExpression", ["properties"]),
    ("ObjectPattern", ["properties", "typeAnnotation"]),
    ("OptionalChainingExpression", ["base"]),
    ("Parameter", ["decorators", "pat"]),
    ("ParenthesisExpression", ["expression"]),
    ("PrivateMethod", ["key", "function"]),
    ("PrivateProperty", ["key", "value", "typeAnnotation", "decorators"]),
    ("RestElement", ["argument", "typeAnnotation"]),
    ("ReturnStatement", ["argument"]),
    ("Script", ["body"]),
    ("SequenceExpression", ["expressions"]),
    ("SetterProperty", ["key", "thisParam", "param", "body"]),
    ("SpreadElement", ["arguments"]),
    ("StaticBlock", ["body"]),
    ("SuperPropExpression", ["obj", "property"]),
    ("SwitchCase", ["test", "consequent"]),
    ("SwitchStatement", ["discriminant", "cases"]),
    ("TaggedTemplateExpression", ["tag", "typeParameters", "template"]),
    ("TemplateLiteral", ["expressions", "types", "quasis"]),
    ("ThrowStatement", ["argument"]),
    ("TryStatement", ["block", "handler", "finalizer"]),
    ("TsArrayType", ["elemType"]),
    ("TsAsExpression", ["expression", "typeAnnotation"]),
    ("TsCallSignatureDeclaration", ["params", "typeAnnotation", "typeParams"]),
    ("TsConditionalType", ["checkType", "extendsType", "trueType", "falseType"]),
    ("TsConstAssertion", ["expression"]),
    ("TsConstructSignatureDeclaration", ["params", "typeAnnotation", "typeParams"]),
    ("TsConstructorType", ["params", "typeParams", "typeAnnotation"]),
    ("TsEnumDeclaration", ["id", "members"]),
    ("TsEnumMember", ["id", "init"]),
    ("TsExportAssignment", ["expression"]),
    ("TsExpressionWithTypeArguments", ["expression", "typeArguments"]),
    ("TsExternalModuleReference", ["expression"]),
    ("TsFunctionType", ["params", "typeParams", "typeAnnotation"]),
    ("TsGetterSignature", ["key", "typeAnnotation"]),
    ("TsImportCallOptions", ["with"]),
    ("TsImportEqualsDeclaration", ["id", "moduleRef"]),
    ("TsImportType", ["argument", "qualifier", "typeArguments", "attributes"]),
    ("TsIndexSignature", ["params", "typeAnnotation"]),
    ("TsIndexedAccessType", ["objectType", "indexType"]),
    ("TsInferType", ["typeParam"]),
    ("TsInstantiation", ["expression", "typeArguments"]),
    ("TsInterfaceBody", ["body"]),
    ("TsInterfaceDeclaration", ["id", "typeParams", "extends", "body"]),
    ("TsIntersectionType", ["types"]),
    ("TsLiteralType", ["literal"]),
    ("TsMappedType", ["typeParam", "nameType", "typeAnnotation"]),
    ("TsMethodSignature", ["key", "params", "typeAnn", "typeParams"]),
    ("TsModuleBlock", ["body"]),
    ("TsModuleDeclaration", ["id", "body"]),
    ("TsNamespaceDeclaration", ["id", "body"]),
    ("TsNamespaceExportDeclaration", ["id"]),
    ("TsNonNullExpression", ["expression"]),
    ("TsOptionalType", ["typeAnnotation"]),
    ("TsParameterProperty", ["decorators", "param"]),
    ("TsParenthesizedType", ["typeAnnotation"]),
    ("TsPropertySignature", ["key", "typeAnnotation"]),
    ("TsQualifiedName", ["left", "right"]),
    ("TsRestType", ["typeAnnotation"]),
    ("TsSatisfiesExpression", ["expression", "typeAnnotation"]),
    ("TsSetterSignature", ["key", "param"]),
    ("TsTupleElement", ["label", "ty"]),
    ("TsTupleType", ["elemTypes"]),
    ("TsTypeAliasDeclaration", ["id", "typeParams", "typeAnnotation"]),
    ("TsTypeAnnotation", ["typeAnnotation"]),
    ("TsTypeAssertion", ["expression", "typeAnnotation"]),
    ("TsTypeLiteral", ["members"]),
    ("TsTypeOperator", ["typeAnnotation"]),
    ("TsTypeParameter", ["name", "constraint", "default"]),
    ("TsTypeParameterDeclaration", ["parameters"]),
    ("TsTypeParameterInstantiation", ["params"]),
    ("TsTypePredicate", ["paramName", "typeAnnotation"]),
    ("TsTypeQuery", ["exprName", "typeArguments"]),
    ("TsTypeReference", ["typeName", "typeParams"]),
    ("TsUnionType", ["types"]),
    ("UnaryExpression", ["argument"]),
    ("UpdateExpression", ["argument"]),
    ("UsingDeclaration", ["decls"]),
    ("VariableDeclaration", ["declarations"]),
    ("VariableDeclarator", ["id", "init"]),
    ("WhileStatement", ["test", "body"]),
    ("WithStatement", ["object", "body"]),
    ("YieldExpression", ["argument"])]

/-- The parts of the function of a method, which has no kind of its own. -/
def functionParts : List String :=
  ["params", "decorators", "body", "typeParameters", "returnType"]

/-- The parts of a node, in the order in which they are visited. -/
def partNames (kind : Option String) : List String :=
  match kind with
  | some kind => (partTable.lookup kind).getD []
  | none => functionParts

end Rebind.Tree
