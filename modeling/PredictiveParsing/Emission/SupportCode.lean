import PredictiveParsing.Emission.Code

/-!
# The code that all emitted parsers share

Emitted source is complete: next to what depends on the grammar it has the values, the failures,
the observers, the reader of tokens and the cursor of a parser. That part is the same for every
grammar and is given here, piece by piece.

## Main definitions

* `SupportCode.items`: the shared code
* `SupportCode.programItems`: what makes the source a program of its own
* `SupportCode.text`: the written form of the shared code
-/

namespace PredictiveParsing.SupportCode

/-- What the shared code uses. -/
def importItems : List (List Code) := [
  [
    .line "use std::fmt;"],
  [
    .line "use regex::Regex;"]]

/-- Values and their written form. -/
def valueItems : List (List Code) := [
  [
    .line "#[derive(Clone, Debug, PartialEq, Eq)]",
    .block "pub enum Value" [
      .line "Empty,",
      .line "Token(String),",
      .line "Tuple(Vec<Value>),",
      .line "Node(Box<Node>),"]],
  [
    .block "impl Value" [
      .block "pub fn is_empty(&self) -> bool" [
        .line "matches!(self, Value::Empty)"]]],
  [
    .block "impl fmt::Display for Value" [
      .block "fn fmt(&self, f: &mut fmt::Formatter<'_>) -> fmt::Result" [
        .block "match self" [
          .line "Value::Empty => write!(f, \"None\"),",
          .line "Value::Token(text) => write!(f, \"\x7b:?\x7d\", text),",
          .block "Value::Tuple(values) =>" [
            .line "write!(f, \"(\")?;",
            .block "for (i, value) in values.iter().enumerate()" [
              .block "if i > 0" [
                .line "write!(f, \", \")?;"],
              .line "write!(f, \"\x7b\x7d\", value)?;"],
            .line "write!(f, \")\")"],
          .line "Value::Node(node) => write!(f, \"\x7b\x7d\", node),"]]]]]

/-- Failures of a parse. -/
def failureItems : List (List Code) := [
  [
    .block "impl fmt::Display for Node" [
      .block "fn fmt(&self, f: &mut fmt::Formatter<'_>) -> fmt::Result" [
        .line "write!(f, \"\x7b\x7d[\", self.kind())?;",
        .block "for (i, (key, value)) in self.attrs().iter().enumerate()" [
          .block "if i > 0" [
            .line "write!(f, \", \")?;"],
          .line "write!(f, \"\x7b\x7d: \x7b\x7d\", key, value)?;"],
        .line "write!(f, \"]\")"]]],
  [
    .line "#[derive(Clone, Copy, Debug, PartialEq, Eq, Hash)]",
    .block "pub enum FailureKind" [
      .line "Scan,",
      .line "Parse,",
      .line "TrailingInput,"]],
  [
    .line "#[derive(Clone, Debug, PartialEq, Eq)]",
    .block "pub struct ParseFailure" [
      .line "pub kind: FailureKind,",
      .line "pub line: usize,",
      .line "pub message: String,"]],
  [
    .block "impl fmt::Display for ParseFailure" [
      .block "fn fmt(&self, f: &mut fmt::Formatter<'_>) -> fmt::Result" [
        .line "write!(f, \"\x7b\x7d\", self.message)"]]]]

/-- What can be told about a parse while it runs. -/
def observerItems : List (List Code) := [
  [
    .line "impl std::error::Error for ParseFailure \x7b\x7d"]]

/-- The compiled rules for tokens, and the piece of text that the first applicable rule reads. -/
def lexerItems : List (List Code) := [
  [
    .block "pub trait Observer" [
      .line "fn enter(&self, _nonterminal: &str, _line: usize) \x7b\x7d",
      .gap,
      .line "fn consume(&self, _token: &str, _text: &str) \x7b\x7d"]],
  [
    .block "pub struct Lexer" [
      .line "rules: Vec<(&'static str, Regex)>,"]]]

/-- A parser: a cursor on a text with one token of lookahead. -/
def parserItems : List (List Code) := [
  [
    .block "impl Lexer" [
      .block "pub fn new() -> Result<Lexer, regex::Error>" [
        .line "let mut rules = Vec::with_capacity(LEX_RULES.len());",
        .block "for &(name, pattern) in LEX_RULES" [
          .line "rules.push((name, Regex::new(&format!(r\"\\A(?:\x7b\x7d)\", pattern))?));"],
        .line "Ok(Lexer \x7b rules \x7d)"],
      .gap,
      .block "fn match_prefix<'i>(&self, input: &'i str) -> Option<(usize, &'i str)>" [
        .braces "self.rules.iter().enumerate().find_map(|(rule, (_, matcher))|" [
          .line "matcher",
          .line "    .find(input)",
          .line "    .filter(|m| m.end() > 0)",
          .line "    .map(|m| (rule, &input[..m.end()]))"]
          ")"],
      .gap,
      .block "pub fn parser<'l, 'i>(&'l self, input: &'i str) -> Parser<'l, 'i>" [
        .block "Parser" [
          .line "lexer: self,",
          .line "input,",
          .line "cursor: 0,",
          .line "line: 1,",
          .line "lookahead: None,",
          .line "observer: None,"]],
      .gap,
      .block "pub fn parse(&self, input: &str) -> Result<Value, ParseFailure>" [
        .line "self.parser(input).run()"]]],
  [
    .line "#[derive(Clone, Copy)]",
    .block "struct Token<'i>" [
      .line "name: &'static str,",
      .line "text: &'i str,"]],
  [
    .block "pub struct Parser<'l, 'i>" [
      .line "lexer: &'l Lexer,",
      .line "input: &'i str,",
      .line "cursor: usize,",
      .line "line: usize,",
      .line "lookahead: Option<Token<'i>>,",
      .line "observer: Option<&'l dyn Observer>,"]],
  [
    .line "#[allow(dead_code)]",
    .block "fn starts(next: Option<&str>, set: &[&str]) -> bool" [
      .line "next.map_or(false, |name| set.contains(&name))"]],
  [
    .block "impl<'l, 'i> Parser<'l, 'i>" [
      .block "pub fn with_observer(mut self, observer: &'l dyn Observer) -> Self" [
        .line "self.observer = Some(observer);",
        .line "self"],
      .gap,
      .block "pub fn run(mut self) -> Result<Value, ParseFailure>" [
        .line "let value = self.parse_root()?;",
        .block "match self.peek()?" [
          .nest "Some(token) => Err(self.failure(" [
            .line "FailureKind::TrailingInput,",
            .nest "format!(" [
              .line "\"Couldn't parse all of input. Next token: \x7b\x7d:\x7b\x7d\",",
              .line "token.name, token.text"]
              "),"]
            ")),",
          .line "None => Ok(value),"]],
      .gap,
      .block "fn failure(&self, kind: FailureKind, detail: String) -> ParseFailure" [
        .block "ParseFailure" [
          .line "kind,",
          .line "line: self.line,",
          .line "message: format!(\"Parse Error, line \x7b\x7d: \x7b\x7d\", self.line, detail),"]],
      .gap,
      .block "fn peek(&mut self) -> Result<Option<Token<'i>>, ParseFailure>" [
        .line "let (lexer, input) = (self.lexer, self.input);",
        .block "while self.lookahead.is_none() && self.cursor < input.len()" [
          .line "let rest = &input[self.cursor..];",
          .braces "let Some((rule, text)) = lexer.match_prefix(rest) else" [
            .line "let preview: String = rest.chars().take(50).collect();",
            .braces "return Err(ParseFailure" [
              .line "kind: FailureKind::Scan,",
              .line "line: self.line,",
              .nest "message: format!(" [
                .line ("\"Lexer Error, line \x7b\x7d: No matching token found. " ++
                  "Remaining input: \x7b\x7d ....\","),
                .line "self.line, preview"]
                "),"]
              ");"]
            ";",
          .line "self.cursor += text.len();",
          .block "if rule == 0" [
            .line "self.line += text.matches('\\n').count();",
            .line "continue;"],
          .braces "self.lookahead = Some(Token" [
            .line "name: lexer.rules[rule].0,",
            .line "text,"]
            ");"],
        .line "Ok(self.lookahead)"],
      .gap,
      .block ("fn enter(&mut self, nonterminal: &str) -> " ++
          "Result<Option<&'static str>, ParseFailure>") [
        .line "let next = self.peek()?.map(|token| token.name);",
        .block "if let Some(observer) = self.observer" [
          .line "observer.enter(nonterminal, self.line);"],
        .line "Ok(next)"],
      .gap,
      .block "fn consume(&mut self, expected: &str) -> Result<Value, ParseFailure>" [
        .block "match self.peek()?" [
          .block "Some(token) if token.name == expected =>" [
            .line "self.lookahead = None;",
            .block "if let Some(observer) = self.observer" [
              .line "observer.consume(token.name, token.text);"],
            .line "Ok(Value::Token(token.text.to_string()))"],
          .nest "Some(token) => Err(self.failure(" [
            .line "FailureKind::Parse,",
            .nest "format!(" [
              .line "\"Expected token \x7b\x7d, but found token \x7b\x7d:\x7b\x7d\",",
              .line "expected, token.name, token.text"]
              "),"]
            ")),",
          .nest "None => Err(self.failure(" [
            .line "FailureKind::Parse,",
            .line "format!(\"Expected token \x7b\x7d, but found token EOF:\", expected),"]
            ")),"]],
      .gap,
      .line "#[allow(dead_code)]",
      .block "fn no_alternative(&self, nonterminal: &str, expected: &[&[&str]]) -> ParseFailure" [
        .line ("let alternatives: Vec<String> = " ++
          "expected.iter().map(|alt| alt.join(\", \")).collect();"),
        .braces "let (found, text) = match self.lookahead" [
          .line "Some(token) => (token.name, token.text),",
          .line "None => (\"EOF\", \"\"),"]
          ";",
        .nest "self.failure(" [
          .line "FailureKind::Parse,",
          .nest "format!(" [
            .line ("\"while parsing \x7b\x7d expected one of [\x7b\x7d], " ++
              "but found token \x7b\x7d:\x7b\x7d\","),
            .line "nonterminal,",
            .line "alternatives.join(\" | \"),",
            .line "found,",
            .line "text"]
            "),"]
          ")"]]]]

/-- **The shared code**, as items of the source. -/
def items : List (List Code) :=
  importItems ++ valueItems ++ failureItems ++ observerItems ++ lexerItems ++ parserItems

/-- The written form of the shared code. -/
def text : String := Code.renderItems items

/-- **What makes the source a program of its own**: it parses the file that its first argument
names. -/
def programItems : List (List Code) := [
  [
    .line "struct TraceObserver;"],
  [
    .block "impl Observer for TraceObserver" [
      .block "fn enter(&self, nonterminal: &str, line: usize)" [
        .line "eprintln!(\"\x7b\x7d (line \x7b\x7d)\", nonterminal, line);"],
      .gap,
      .block "fn consume(&self, token: &str, text: &str)" [
        .line "eprintln!(\"consumed \x7b\x7d:\x7b\x7d\", token, text);"]]],
  [
    .block "fn main()" [
      .line "let args: Vec<String> = std::env::args().collect();",
      .block "if args.len() < 2" [
        .line "eprintln!(\"usage: \x7b\x7d <input> [-v]\", args[0]);",
        .line "std::process::exit(2);"],
      .braces "let source = match std::fs::read_to_string(&args[1])" [
        .line "Ok(source) => source,",
        .block "Err(err) =>" [
          .line "eprintln!(\"cannot read \x7b\x7d: \x7b\x7d\", args[1], err);",
          .line "std::process::exit(2);"]]
        ";",
      .braces "let lexer = match Lexer::new()" [
        .line "Ok(lexer) => lexer,",
        .block "Err(err) =>" [
          .line "eprintln!(\"\x7b\x7d\", err);",
          .line "std::process::exit(2);"]]
        ";",
      .line "let tracer = TraceObserver;",
      .line "let mut parser = lexer.parser(&source);",
      .block "if args.iter().skip(2).any(|arg| arg == \"-v\")" [
        .line "parser = parser.with_observer(&tracer);"],
      .block "match parser.run()" [
        .line "Ok(value) => println!(\"\x7b\x7d\", value),",
        .block "Err(err) =>" [
          .line "eprintln!(\"\x7b\x7d\", err);",
          .line "std::process::exit(1);"]]]]]

end PredictiveParsing.SupportCode
